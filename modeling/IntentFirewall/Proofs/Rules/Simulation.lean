import IntentFirewall.Proofs.Rules.Calls

/-!
# Calls on two storages

A call opens the rule file, reads it to the end and replaces its bytes. On two storages that differ
in how a file is read it answers the same, and leaves states that belong together, if reading the
rule file to the end does so.

* `Storage.Agree`: two operations answer the same and leave states that belong together.
* `Storage.Simulates`: two storages in which all operations but reading do so, and
  `Storage.ReadsAlike`: reading a file that has just been opened does so, too.
* `RuleStore.agree_carryOut`: then calls do so.
-/

namespace IntentFirewall

variable {τ σ α : Type}

namespace Storage

/-- Two operations answer the same and leave states that belong together. -/
def Agree (R : τ → σ → Prop) (a : α × τ) (b : α × σ) : Prop := a.1 = b.1 ∧ R a.2 b.2

theorem Agree.exists_eq {R : τ → σ → Prop} {a : α × τ} {b : α × σ} (h : Agree R a b) :
    ∃ result t s, a = (result, t) ∧ b = (result, s) ∧ R t s :=
  ⟨a.1, a.2, b.2, rfl, Prod.ext h.1.symm rfl, h.2⟩

variable [Storage τ] [Storage σ]

/-- Two storages in which all operations agree but those that read. -/
structure Simulates (R : τ → σ → Prop) : Prop where
  /-- Looking whether there is a file. -/
  isFile : ∀ {t s}, R t s → ∀ path, Agree R (Storage.isFile path t) (Storage.isFile path s)
  /-- Opening a file. -/
  openFile : ∀ {t s}, R t s → ∀ path, Agree R (Storage.openFile path t) (Storage.openFile path s)
  /-- Cutting a file. -/
  truncate : ∀ {t s}, R t s → ∀ h length,
    Agree R (Storage.truncate h length t) (Storage.truncate h length s)
  /-- Writing to a file. -/
  write : ∀ {t s}, R t s → ∀ h bytes,
    Agree R (Storage.write h bytes t) (Storage.write h bytes s)
  /-- Closing a file. -/
  close : ∀ {t s}, R t s → ∀ h, Agree R (Storage.close h t) (Storage.close h s)

/-- A file that is opened in both of two states is read alike. -/
def ReadsAlike (R : τ → σ → Prop) (path : String) (t : τ) (s : σ) : Prop :=
  ∀ h t' s', Storage.openFile path t = (.ok h, t') → Storage.openFile path s = (.ok h, s') →
    Agree R (readToEnd h t') (readToEnd h s')

end Storage

namespace RuleStore

open Storage

variable [Storage τ] [Storage σ] {R : τ → σ → Prop} {t : τ} {s : σ}

theorem agree_replaceBytes (hsim : Simulates R) (hR : R t s) (path : String) (h : Handle)
    (bytes : List UInt8) : Agree R (replaceBytes path h bytes t) (replaceBytes path h bytes s) := by
  rw [replaceBytes, replaceBytes]
  obtain ⟨result, t₁, s₁, ht₁, hs₁, hR₁⟩ := (hsim.truncate hR h 0).exists_eq
  rw [ht₁, hs₁]
  cases result with
  | error e => exact ⟨rfl, hR₁⟩
  | ok h₁ =>
    dsimp only
    obtain ⟨result, t₂, s₂, ht₂, hs₂, hR₂⟩ := (hsim.write hR₁ h₁ bytes).exists_eq
    rw [ht₂, hs₂]
    cases result with
    | error e => exact ⟨rfl, hR₂⟩
    | ok h₂ =>
      dsimp only
      obtain ⟨result, t₃, s₃, ht₃, hs₃, hR₃⟩ := (hsim.close hR₂ h₂).exists_eq
      rw [ht₃, hs₃]
      cases result <;> exact ⟨rfl, hR₃⟩

/-- An edit of a rule file reads the same document, and hence writes the same one. -/
theorem agree_transact (hsim : Simulates R) (hR : R t s) {path : String}
    (hread : ReadsAlike R path t s) (edit : Edit α) :
    Agree R (transact path edit t) (transact path edit s) := by
  rw [transact, transact]
  obtain ⟨result, t₁, s₁, ht₁, hs₁, hR₁⟩ := (hsim.openFile hR path).exists_eq
  rw [ht₁, hs₁]
  cases result with
  | error e => exact ⟨rfl, hR₁⟩
  | ok h =>
    dsimp only
    obtain ⟨result, t₂, s₂, ht₂, hs₂, hR₂⟩ := (hread h t₁ s₁ ht₁ hs₁).exists_eq
    rw [ht₂, hs₂]
    cases result with
    | error e => exact ⟨rfl, hR₂⟩
    | ok read =>
      dsimp only
      cases Document.ofBytes read.1 with
      | error e => exact ⟨rfl, hR₂⟩
      | ok d =>
        dsimp only
        obtain ⟨result, t₃, s₃, ht₃, hs₃, hR₃⟩ :=
          (agree_replaceBytes hsim hR₂ path read.2 (edit d).2.toBytes).exists_eq
        rw [ht₃, hs₃]
        cases result <;> exact ⟨rfl, hR₃⟩

theorem agree_plan (hsim : Simulates R) (hR : R t s) {path : String}
    (hread : ReadsAlike R path t s)
    (hlooked : ReadsAlike R path (Storage.isFile path t).2 (Storage.isFile path s).2)
    (change : Document → Document) (plan : Plan) :
    Agree R (plan.carryOut path change t) (plan.carryOut path change s) := by
  match plan with
  | .settled result => exact ⟨rfl, hR⟩
  | .editing false answer =>
    rw [Plan.carryOut, Plan.carryOut]
    exact agree_transact hsim hR hread _
  | .editing true answer =>
    rw [Plan.carryOut, Plan.carryOut]
    obtain ⟨result, t₁, s₁, ht₁, hs₁, hR₁⟩ := (hsim.isFile hR path).exists_eq
    rw [ht₁, hs₁] at hlooked
    rw [ht₁, hs₁]
    rcases result with e | _ | _
    · exact ⟨rfl, hR₁⟩
    · exact ⟨rfl, hR₁⟩
    · exact agree_transact hsim hR₁ hlooked _

/-- A call agrees on two storages that read the rule file alike, whether or not somebody has looked
before if it is there. -/
theorem agree_carryOut (hsim : Simulates R) (hR : R t s) (store : RuleStore) (packageName : String)
    (c : Call)
    (hread : ReadsAlike R (Path.join store.rulesDir (packageName ++ ".xml")) t s)
    (hlooked : ReadsAlike R (Path.join store.rulesDir (packageName ++ ".xml"))
      (Storage.isFile (Path.join store.rulesDir (packageName ++ ".xml")) t).2
      (Storage.isFile (Path.join store.rulesDir (packageName ++ ".xml")) s).2) :
    Agree R (store.carryOut packageName c t) (store.carryOut packageName c s) := by
  rw [carryOut_eq, carryOut_eq]
  exact agree_plan hsim hR hread hlooked _ _

end RuleStore
end IntentFirewall
