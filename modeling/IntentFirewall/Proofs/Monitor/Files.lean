import IntentFirewall.Proofs.Monitor.Requests
import IntentFirewall.Proofs.Rules.Failure

/-!
# What requests do to files

Only the store of the rule files touches the storage, and a monitor that scans or looks at the rule
document has it read only. So what a request does to files is what its call does to the rule file.

* `RuleStore.view_readDocument`, `Monitor.view_survey`: reading leaves the files as they are, in
  whatever way these are seen.
* `Monitor.Searched.storage_eq`, `Monitor.Passage.storage_cases`: a scan, and a call with the scan
  that may follow.
-/

namespace IntentFirewall

open Unreliable

/-! ## Reading -/

section

variable {σ β : Type} [Storage σ] {view : σ → β}

/-- What is not changed by looking at files is not changed by reading the rule document. -/
theorem RuleStore.view_readDocument
    (hisFile : ∀ path s, view (Storage.isFile path s).2 = view s)
    (hreadAll : ∀ path s, view (Storage.readAll path s).2 = view s) (store : RuleStore)
    (packageName : String) (s : σ) : view (store.readDocument packageName s).2 = view s := by
  unfold readDocument
  split
  next => rfl
  next path _ =>
    have hlooked := hisFile path s
    split
    next heq => rwa [heq] at hlooked
    next heq => rwa [heq] at hlooked
    next s₁ heq =>
      rw [heq] at hlooked
      have hread := hreadAll path s₁
      split
      next heq =>
        rw [heq] at hread
        exact hread.trans hlooked
      next heq =>
        rw [heq] at hread
        split
        · exact hread.trans hlooked
        · exact hread.trans hlooked

theorem RuleStore.view_applyState
    (hisFile : ∀ path s, view (Storage.isFile path s).2 = view s)
    (hreadAll : ∀ path s, view (Storage.readAll path s).2 = view s) (store : RuleStore)
    (packageName : String) (trackers : List Tracker) (s : σ) :
    view (store.applyState packageName trackers s).2 = view s := by
  rw [← store.view_readDocument hisFile hreadAll packageName s, applyState]
  split
  next heq => rw [heq]
  next heq => rw [heq]

/-- Nor is it changed by looking for trackers, whether any are found or not. -/
theorem Monitor.view_survey
    (hisFile : ∀ path s, view (Storage.isFile path s).2 = view s)
    (hreadAll : ∀ path s, view (Storage.readAll path s).2 = view s) (m : Monitor σ)
    (keyword : String) (s : σ) : view (m.survey keyword s).2 = view s := by
  unfold survey
  split
  next => rfl
  next found _ =>
    change view (m.withRuleState _ s).2 = _
    unfold withRuleState
    split
    next => rfl
    next store _ =>
      rw [← store.view_applyState hisFile hreadAll m.package.packageName
        (m.signatures.report found.components keyword).trackers s]
      split
      next heq => rw [heq]
      next heq => rw [heq]

end

theorem Session.storage_publish {σ : Type} (s : Session σ) (report : ScanReport) :
    (s.publish report).storage = s.storage := by
  unfold publish
  split <;> rfl

/-! ## Requests -/

namespace Monitor

open RuleStore

variable {m : Monitor (Unreliable Memory)} {s : Session (Unreliable Memory)}

theorem Searched.storage_eq {result : Except MonitorError ScanReport × Session (Unreliable Memory)}
    (h : Searched m s result) : result.2.storage.storage = s.storage.storage := by
  cases h with
  | unresolved => rfl
  | @found report u hsurvey =>
    have hstorage := m.view_survey storage_isFile storage_readAll s.keyword s.storage
    rw [hsurvey] at hstorage
    rw [Session.storage_publish]
    exact hstorage

/-- A call changes no files without privileges. With them, it leaves what the call leaves that the
store has carried out. -/
theorem Passage.storage_cases {position : Option Nat} {c : Call}
    {result : Except MonitorError Outcome × Session (Unreliable Memory)}
    (h : Passage m position c s result) :
    m.rules = none ∧ result.2.storage.storage = s.storage.storage ∨
      ∃ store, m.rules = some store ∧ result.2.storage.storage =
        (store.carryOut m.package.packageName c s.storage).2.storage := by
  cases h with
  | unprivileged hrules => exact .inl ⟨hrules, rfl⟩
  | refused hrules hcall => exact .inr ⟨_, hrules, by rw [hcall]; rfl⟩
  | missing hrules hcall => exact .inr ⟨_, hrules, by rw [hcall]; rfl⟩
  | updated hrules hcall => exact .inr ⟨_, hrules, by rw [hcall]; rfl⟩
  | rescanned hrules hcall _ hscan =>
    exact .inr ⟨_, hrules, by rw [hcall]; exact hscan.storage_eq⟩

theorem storage_readRules (m : Monitor (Unreliable Memory)) (s : Session (Unreliable Memory)) :
    (m.readRules s).2.storage.storage = s.storage.storage := by
  unfold readRules
  split
  next => rfl
  next store _ =>
    rw [← store.view_readDocument storage_isFile storage_readAll m.package.packageName s.storage]
    split
    next heq =>
      rw [heq]
      rfl
    next heq => rw [heq]

end Monitor
end IntentFirewall
