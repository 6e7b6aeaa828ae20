import IntentFirewall.Monitor.Run
import IntentFirewall.Proofs.Rules.Preservation
import IntentFirewall.Proofs.Rules.ReadBack
import IntentFirewall.Storage.Memory

/-!
# Two views of a rule file

A rule file can be looked at in two ways: its rule sets can be listed, and trackers can be given the
state that the file has for them. The second way compares names of elements and stops at the first
hit. What it shows is what the first one lists.

## Main definitions

* `RuleSet.IsAgainst`: a rule set that blocks a tracker.
* `Tracker.IsShown`: a tracker with the state that rule sets give it.

## Main results

* `Tracker.isShown_withState`: the state that a document gives a tracker is the one of its rule
  sets.
* `RuleStore.applyState_shows`: what becomes of trackers, whether there is a rule file, whether it
  can be read, and whether it is a rule document.
-/

namespace IntentFirewall

/-! ## What rule sets say about a tracker -/

/-- A rule set of the tag of a tracker blocks and has the filter of the tracker. -/
structure RuleSet.IsAgainst (packageName : String) (t : Tracker) (s : RuleSet) : Prop where
  /-- It is about what the tracker is started by. Nothing is about providers. -/
  tag : RuleTag.forKind? t.kind = some s.tag
  /-- It blocks. -/
  block : s.block = true
  /-- It names the tracker. -/
  filter : t.filterName packageName ∈ s.filters

/-- A tracker with the state that rule sets give it, given the tracker before. -/
structure Tracker.IsShown (packageName : String) (sets : List RuleSet) (t t' : Tracker) : Prop where
  /-- It is blocked if some rule set is against it. -/
  isBlocked_iff : t'.isBlocked = true ↔ ∃ s ∈ sets, s.IsAgainst packageName t
  /-- It is logged if the first one of these logs. -/
  isLogged_iff : t'.isLogged = true ↔ ∃ front s behind, sets = front ++ s :: behind ∧
    (∀ r ∈ front, ¬r.IsAgainst packageName t) ∧ s.IsAgainst packageName t ∧ s.log = true
  /-- A provider is neither. -/
  provider : t.kind = .provider → t'.isBlocked = false ∧ t'.isLogged = false
  /-- Nothing else of it has changed. -/
  others : { t' with isBlocked := t.isBlocked, isLogged := t.isLogged } = t

namespace RuleSet

variable {packageName : String} {t : Tracker} {tag : RuleTag} {sets : List RuleSet}

theorem isAgainst_iff (htag : RuleTag.forKind? t.kind = some tag) {s : RuleSet} :
    s.IsAgainst packageName t ↔ s.blocksName tag (t.filterName packageName) = true := by
  rw [blocksName, Bool.and_eq_true, blocks_iff, heading, Prod.mk.injEq, List.contains_iff_mem]
  constructor
  · rintro ⟨hsame, hblock, hfilter⟩
    exact ⟨⟨Option.some.inj (hsame.symm.trans htag), hblock⟩, hfilter⟩
  · rintro ⟨⟨rfl, hblock⟩, hfilter⟩
    exact ⟨htag, hblock, hfilter⟩

theorem isSome_state_iff (htag : RuleTag.forKind? t.kind = some tag) :
    (state tag (t.filterName packageName) sets).isSome = true ↔
      ∃ s ∈ sets, s.IsAgainst packageName t := by
  simp only [state, Option.isSome_map, List.find?_isSome, isAgainst_iff htag]

/-- The first rule set that is against a tracker decides whether it is logged. -/
theorem state_eq_some_iff (htag : RuleTag.forKind? t.kind = some tag) {logged : Bool} :
    state tag (t.filterName packageName) sets = some logged ↔
      ∃ front s behind, sets = front ++ s :: behind ∧
        (∀ r ∈ front, ¬r.IsAgainst packageName t) ∧ s.IsAgainst packageName t ∧
          s.log = logged := by
  simp only [state, Option.map_eq_some_iff, List.find?_eq_some_iff_append, isAgainst_iff htag,
    Bool.not_eq_true, Bool.not_eq_true']
  constructor
  · rintro ⟨s, ⟨hs, front, behind, hsets, hfront⟩, hlog⟩
    exact ⟨front, s, behind, hsets, hfront, hs, hlog⟩
  · rintro ⟨front, s, behind, hsets, hfront, hs, hlog⟩
    exact ⟨s, ⟨hs, front, behind, hsets, hfront⟩, hlog⟩

end RuleSet

namespace Tracker

variable {packageName : String} {t : Tracker}

/-- A tracker without a state is shown so if there is no rule set that could be against it. -/
theorem isShown_withState_none {sets : List RuleSet}
    (h : ∀ s ∈ sets, ¬s.IsAgainst packageName t) :
    IsShown packageName sets t (t.withState none) where
  isBlocked_iff := by
    constructor
    · intro hblocked
      cases hblocked
    · rintro ⟨s, hs, hagainst⟩
      exact absurd hagainst (h s hs)
  isLogged_iff := by
    constructor
    · intro hlogged
      cases hlogged
    · rintro ⟨front, s, behind, rfl, -, hagainst, -⟩
      exact absurd hagainst (h s (by simp))
  provider _ := ⟨rfl, rfl⟩
  others := rfl

/-- The state that a document gives a tracker is the one that its rule sets give it. -/
theorem isShown_withState (packageName : String) (d : Document) (t : Tracker) :
    IsShown packageName d.ruleSets t (t.withState (RuleStore.stateIn packageName (some d) t)) := by
  cases htag : RuleTag.forKind? t.kind with
  | none =>
    -- A provider has no tag, so that neither view has anything on it.
    have hstate : RuleStore.stateIn packageName (some d) t = none := by
      simp only [RuleStore.stateIn, htag]
    rw [hstate]
    apply isShown_withState_none
    intro s _ hagainst
    cases htag.symm.trans hagainst.tag
  | some tag =>
    have hstate : RuleStore.stateIn packageName (some d) t =
        RuleSet.state tag (t.filterName packageName) d.ruleSets := by
      simp only [RuleStore.stateIn, htag, Document.blockingState_eq_state]
    rw [hstate]
    refine ⟨RuleSet.isSome_state_iff htag, ?_, ?_, rfl⟩
    · rw [← RuleSet.state_eq_some_iff htag]
      cases RuleSet.state tag (t.filterName packageName) d.ruleSets <;> simp [withState]
    · intro hkind
      rw [hkind] at htag
      cases htag

end Tracker

namespace RuleStore

variable {σ : Type} [Storage σ] {store : RuleStore} {packageName path : String} {s s₁ s₂ : σ}

/-- A file that is a rule document gives every tracker the state that the document has for it. -/
theorem applyState_of_read (hpath : store.rulesPath packageName = .ok path)
    (hfile : Storage.isFile path s = (.ok true, s₁)) {bytes : List UInt8}
    (hread : Storage.readAll path s₁ = (.ok bytes, s₂)) {d : Document}
    (hdocument : Document.ofBytes bytes = .ok d) (trackers : List Tracker) :
    store.applyState packageName trackers s =
      (.ok (trackers.map fun t => t.withState (stateIn packageName (some d) t)), s₂) := by
  simp only [applyState, readDocument, hpath, hfile, hread, hdocument]

/-- This state is the one that the rule sets of the file give a tracker. -/
theorem applyState_of_document (hpath : store.rulesPath packageName = .ok path)
    (hfile : Storage.isFile path s = (.ok true, s₁)) {bytes : List UInt8}
    (hread : Storage.readAll path s₁ = (.ok bytes, s₂)) {d : Document}
    (hdocument : Document.ofBytes bytes = .ok d) (trackers : List Tracker) :
    ∃ out, store.applyState packageName trackers s = (.ok out, s₂) ∧
      List.Forall₂ (Tracker.IsShown packageName d.ruleSets) trackers out := by
  refine ⟨_, applyState_of_read hpath hfile hread hdocument trackers, ?_⟩
  rw [List.forall₂_map_right_iff]
  exact List.forall₂_same.2 fun t _ => t.isShown_withState packageName d

/-- A missing file gives no tracker a state. -/
theorem applyState_of_missing (hpath : store.rulesPath packageName = .ok path)
    (hfile : Storage.isFile path s = (.ok false, s₁)) (trackers : List Tracker) :
    ∃ out, store.applyState packageName trackers s = (.ok out, s₁) ∧
      List.Forall₂ (Tracker.IsShown packageName []) trackers out := by
  refine ⟨trackers.map fun t => t.withState none, ?_, ?_⟩
  · simp only [applyState, readDocument, hpath, hfile, stateIn]
  · rw [List.forall₂_map_right_iff]
    exact List.forall₂_same.2 fun t _ => Tracker.isShown_withState_none (by simp)

/-- Trackers are given the state that the rule sets of the file give them, and no state if there is
no file: they stay in their places, and nothing but the two flags changes. If the file cannot be
read, or is no rule document, they stay as they are. -/
theorem applyState_shows (store : RuleStore) (packageName : String) (trackers : List Tracker)
    (s : σ) :
    (∀ path s₁ s₂ bytes d, store.rulesPath packageName = .ok path →
      Storage.isFile path s = (.ok true, s₁) → Storage.readAll path s₁ = (.ok bytes, s₂) →
      Document.ofBytes bytes = .ok d →
        ∃ out, store.applyState packageName trackers s = (.ok out, s₂) ∧
          List.Forall₂ (Tracker.IsShown packageName d.ruleSets) trackers out) ∧
      (∀ path s₁, store.rulesPath packageName = .ok path →
        Storage.isFile path s = (.ok false, s₁) →
          ∃ out, store.applyState packageName trackers s = (.ok out, s₁) ∧
            List.Forall₂ (Tracker.IsShown packageName []) trackers out) ∧
      ∀ e s', store.applyState packageName trackers s = (.error e, s') →
        ∀ m : Monitor σ, m.rules = some store → m.package.packageName = packageName →
          m.withRuleState trackers s = ((trackers, some e), s') := by
  refine ⟨?_, ?_, ?_⟩
  · intro path s₁ s₂ bytes d hpath hfile hread hdocument
    exact applyState_of_document hpath hfile hread hdocument trackers
  · intro path s₁ hpath hfile
    exact applyState_of_missing hpath hfile trackers
  · rintro e s' hfailed m hrules rfl
    simp only [Monitor.withRuleState, hrules, hfailed]

/-- Two rule elements of one tag, the first of which logs, a filter inside of another filter, and a
filter under the tag of another kind. -/
theorem applyState_shows_elements :
    let store : RuleStore := ⟨"/ifw"⟩
    let path := "/ifw/com.app.xml"
    let d : Document := ⟨[], .element "activity" [("block", " TRUE "), ("log", "true")]
      (.element "component-filter" [("name", "com.app/t.Ad")] (.ofFilter "com.app/t.Up") .nil)
      (.element "activity" [("block", "true"), ("log", "1")] (.ofFilter "com.app/t.Up")
        (.element "service" [("block", "true")] (.ofFilter "com.app/t.On") .nil))⟩
    let tracker (name : String) (kind : ComponentKind) (state : Option Bool) : Tracker :=
      ⟨name, kind, "T", none, "ads", state.isSome, state.getD false, true, false⟩
    let trackers := [tracker "t.Ad" .activity none, tracker "t.Up" .activity (some true),
      tracker "t.On" .receiver (some false), tracker "t.Ad" .provider none]
    let shown := [tracker "t.Ad" .activity (some true), tracker "t.Up" .activity (some false),
      tracker "t.On" .receiver none, tracker "t.Ad" .provider none]
    let m := Memory.empty.put (.ofText path) d.toBytes
    store.rulesPath "com.app" = .ok path ∧ Storage.isFile path m = (.ok true, m) ∧
      Storage.readAll path m = (.ok d.toBytes, m) ∧ Document.ofBytes d.toBytes = .ok d ∧
      store.applyState "com.app" trackers m = (.ok shown, m) ∧
      List.Forall₂ (Tracker.IsShown "com.app" d.ruleSets) trackers shown := by
  intro store path d tracker trackers shown m
  have hpath : store.rulesPath "com.app" = .ok path := by decide +kernel
  have hcontents : m.contents? (.ofText path) = some d.toBytes := Memory.contents?_put_self ..
  have hallowed : m.denied = false := rfl
  have hfile : Storage.isFile path m = (.ok true, m) := by
    simp [Storage.isFile, Memory.isFile, hcontents, hallowed]
  have hread : Storage.readAll path m = (.ok d.toBytes, m) := by
    simp [Storage.readAll, Memory.readAll, hcontents, hallowed]
  have hnamed : d.IsWellNamed := by
    have hfilter := Xml.Content.isWellNamed_ofFilter
    refine ⟨by decide, by decide, by decide, ?_, by decide, by decide, hfilter _, ?_⟩
    · exact ⟨by decide, by decide, hfilter _, trivial⟩
    · exact ⟨by decide, by decide, hfilter _, trivial⟩
  have hdocument : Document.ofBytes d.toBytes = .ok d :=
    Document.ofBytes_toBytes hnamed.isReadable hnamed.isSealed
  have hstates : trackers.map (fun t => t.withState (stateIn "com.app" (some d) t)) = shown := rfl
  have hshown : store.applyState "com.app" trackers m = (.ok shown, m) := by
    rw [applyState_of_read hpath hfile hread hdocument, hstates]
  obtain ⟨out, hout, hall⟩ := (store.applyState_shows "com.app" trackers m).1 path m m d.toBytes d
    hpath hfile hread hdocument
  obtain rfl : out = shown := Except.ok.inj (congrArg Prod.fst (hout.symm.trans hshown))
  exact ⟨hpath, hfile, hread, hdocument, hout, hall⟩

end RuleStore
end IntentFirewall
