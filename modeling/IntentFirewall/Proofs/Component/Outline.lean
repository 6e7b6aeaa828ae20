import IntentFirewall.Component.Manifest
import IntentFirewall.Proofs.Xml.Reading
import Mathlib.Data.String.Basic

/-!
# What a start tag says in a manifest

Reading a manifest takes its events one after the other, and only start tags matter. What a start
tag means depends on its local name alone.

* `IsLast`: the last one of its kind in a list.
* `Outline.pushTag_manifest`, `Outline.pushTag_application`, `Outline.pushTag_component`,
  `Outline.pushTag_other`: the four meanings.
* `Outline.pushTag_cases`: what a start tag can change.
* `Outline.exists_declared_eq`: components that have been declared stay so.
* `readManifest_eq_ok_iff`: what it means that a manifest is read.
-/

namespace IntentFirewall

/-! ## The last one of its kind -/

/-- The last one for which a property holds. -/
def IsLast {α : Type} (p : α → Prop) (l : List α) (a : α) : Prop :=
  p a ∧ ∃ front back, l = front ++ a :: back ∧ ∀ b ∈ back, ¬p b

theorem not_isLast_nil {α : Type} {p : α → Prop} {a : α} : ¬IsLast p [] a := by
  rintro ⟨-, front, back, h, -⟩
  simp at h

theorem isLast_concat {α : Type} {p : α → Prop} {l : List α} {a b : α} :
    IsLast p (l ++ [b]) a ↔ p b ∧ a = b ∨ ¬p b ∧ IsLast p l a := by
  constructor
  · rintro ⟨ha, front, back, hl, hback⟩
    rcases List.eq_nil_or_concat' back with rfl | ⟨back, c, rfl⟩
    · obtain ⟨-, rfl⟩ := List.concat_inj.1 (by simpa using hl)
      exact .inl ⟨ha, rfl⟩
    · have hsplit : l ++ [b] = (front ++ a :: back) ++ [c] := by simpa using hl
      obtain ⟨rfl, hbc⟩ := List.append_inj' hsplit rfl
      obtain rfl := List.singleton_inj.1 hbc
      refine .inr ⟨hback b (by simp), ha, front, back, rfl, fun d hd => hback d ?_⟩
      exact List.mem_append_left _ hd
  · rintro (⟨hb, rfl⟩ | ⟨hb, ha, front, back, rfl, hback⟩)
    · exact ⟨hb, l, [], rfl, by simp⟩
    · refine ⟨ha, front, back ++ [b], by simp, fun d hd => ?_⟩
      rcases List.mem_append.1 hd with hd | hd
      · exact hback d hd
      · rwa [List.mem_singleton.1 hd]

namespace Manifest

open Xml

namespace Outline

variable {o o' : Outline} {e : Event} {tag : Tag}

theorem push_of_startTag? (h : e.startTag? = some tag) (o : Outline) :
    o.push e = o.pushTag tag := by
  cases e with
  | opened t =>
    obtain rfl : t = tag := Option.some.inj h
    rfl
  | selfClosed t =>
    obtain rfl : t = tag := Option.some.inj h
    rfl
  | _ => cases h

theorem push_of_startTag?_eq_none (h : e.startTag? = none) (o : Outline) : o.push e = .ok o := by
  cases e with
  | opened t => cases h
  | selfClosed t => cases h
  | _ => rfl

/-! ## One start tag -/

/-- A `manifest` tag tells the package, or that there is none. -/
theorem pushTag_manifest (h : localName tag.name = "manifest".toList) (o : Outline) :
    o.pushTag tag = (lookUp "package" tag.attributes).map fun packageName =>
      { o with packageName } := by
  simp only [pushTag, h, String.ofList_toList, if_true]
  cases lookUp "package" tag.attributes <;> rfl

/-- An `application` tag can tell whether the components can be started. -/
theorem pushTag_application (h : localName tag.name = "application".toList) (o : Outline) :
    o.pushTag tag = (lookUp "enabled" tag.attributes).map fun enabled =>
      { o with applicationEnabled := (enabled.map Text.spellsTrue).getD o.applicationEnabled } := by
  have hmanifest : "application" ≠ "manifest" := by decide
  simp only [pushTag, h, String.ofList_toList, if_neg hmanifest, if_true]
  cases lookUp "enabled" tag.attributes with
  | error e => rfl
  | ok enabled => cases enabled <;> rfl

/-- The tag of a kind declares a component. -/
theorem pushTag_component {kind : ComponentKind}
    (h : ComponentKind.ofAnyCase? (String.ofList (localName tag.name)) = some kind) (o : Outline) :
    o.pushTag tag = o.declare kind tag.attributes := by
  -- The other two names are looked for first, but none of them is the name of a kind.
  have hmanifest : String.ofList (localName tag.name) ≠ "manifest" := by
    intro hname
    have hnone : ComponentKind.ofAnyCase? "manifest" = none := by decide
    rw [hname, hnone] at h
    cases h
  have happlication : String.ofList (localName tag.name) ≠ "application" := by
    intro hname
    have hnone : ComponentKind.ofAnyCase? "application" = none := by decide
    rw [hname, hnone] at h
    cases h
  simp only [pushTag, if_neg hmanifest, if_neg happlication, h]

/-- Any other tag says nothing. -/
theorem pushTag_other (hmanifest : localName tag.name ≠ "manifest".toList)
    (happlication : localName tag.name ≠ "application".toList)
    (h : ComponentKind.ofAnyCase? (String.ofList (localName tag.name)) = none) (o : Outline) :
    o.pushTag tag = .ok o := by
  rw [ne_eq, ← String.ofList_eq] at hmanifest happlication
  simp only [pushTag, if_neg hmanifest, if_neg happlication, h]

/-- A declaration adds at most one component. -/
theorem declare_cases {kind : ComponentKind} {attributes : Scan AttributeError RawAttribute}
    (h : o.declare kind attributes = .ok o') :
    o'.packageName = o.packageName ∧ ∃ newer, o'.declared = newer ++ o.declared := by
  rw [declare] at h
  cases hname : lookUp "name" attributes with
  | error e => simp [hname, bind, Except.bind] at h
  | ok name =>
    cases name with
    | none =>
      obtain rfl : o = o' := by simpa [hname, bind, Except.bind] using h
      exact ⟨rfl, [], rfl⟩
    | some name =>
      cases hexported : lookUp "exported" attributes with
      | error e => simp [hname, hexported, bind, Except.bind] at h
      | ok exported =>
        cases henabled : lookUp "enabled" attributes with
        | error e => simp [hname, hexported, henabled, bind, Except.bind] at h
        | ok enabled =>
          simp only [hname, hexported, henabled, bind, Except.bind, Except.ok.injEq] at h
          subst h
          exact ⟨rfl, [_], rfl⟩

/-- What a start tag can change. -/
theorem pushTag_cases (h : o.pushTag tag = .ok o') :
    (localName tag.name = "manifest".toList ∧ ∃ packageName,
      lookUp "package" tag.attributes = .ok packageName ∧ o' = { o with packageName }) ∨
    (localName tag.name ≠ "manifest".toList ∧ o'.packageName = o.packageName ∧
      ∃ newer, o'.declared = newer ++ o.declared) := by
  by_cases hmanifest : localName tag.name = "manifest".toList
  · left
    rw [pushTag_manifest hmanifest] at h
    cases hpackage : lookUp "package" tag.attributes with
    | error e => simp [hpackage, Except.map] at h
    | ok packageName =>
      rw [hpackage] at h
      exact ⟨hmanifest, packageName, rfl, (Except.ok.inj h).symm⟩
  · right
    refine ⟨hmanifest, ?_⟩
    by_cases happlication : localName tag.name = "application".toList
    · rw [pushTag_application happlication] at h
      cases henabled : lookUp "enabled" tag.attributes with
      | error e => simp [henabled, Except.map] at h
      | ok enabled =>
        rw [henabled] at h
        obtain rfl := Except.ok.inj h
        exact ⟨rfl, [], rfl⟩
    · cases hkind : ComponentKind.ofAnyCase? (String.ofList (localName tag.name)) with
      | none =>
        obtain rfl := Except.ok.inj ((pushTag_other hmanifest happlication hkind o).symm.trans h)
        exact ⟨rfl, [], rfl⟩
      | some kind =>
        rw [pushTag_component hkind] at h
        exact declare_cases h

/-! ## All start tags -/

/-- Only the start tags among events matter. -/
theorem foldlM_push_eq (es : List Event) (o : Outline) :
    es.foldlM push o = (startTags es).foldlM pushTag o := by
  induction es generalizing o with
  | nil => rfl
  | cons e es ih =>
    rw [startTags] at ih ⊢
    cases htag : e.startTag? with
    | none =>
      rw [List.filterMap_cons_none htag, foldlM_cons_of_ok (push_of_startTag?_eq_none htag o), ih]
    | some tag =>
      rw [List.filterMap_cons_some htag, List.foldlM_cons, List.foldlM_cons,
        push_of_startTag? htag]
      cases o.pushTag tag with
      | error f => rfl
      | ok o₁ => exact ih o₁

/-- The components that have been declared stay so. -/
theorem exists_declared_eq {tags : List Tag} (h : tags.foldlM pushTag o = .ok o') :
    ∃ newer, o'.declared = newer ++ o.declared := by
  -- What a tag adds comes in front of what was there, whatever outline it meets.
  induction tags generalizing o with
  | nil =>
    obtain rfl : o = o' := Except.ok.inj h
    exact ⟨[], rfl⟩
  | cons tag tags ih =>
    obtain ⟨o₁, htag, htags⟩ := foldlM_cons_eq_ok_iff.1 h
    obtain ⟨newer, hnewer⟩ := ih htags
    obtain ⟨first, hfirst⟩ : ∃ first, o₁.declared = first ++ o.declared := by
      rcases pushTag_cases htag with ⟨-, packageName, -, rfl⟩ | ⟨-, -, hdeclared⟩
      · exact ⟨[], rfl⟩
      · exact hdeclared
    refine ⟨newer ++ first, ?_⟩
    rw [hnewer, hfirst, List.append_assoc]

theorem finish_eq_ok_iff {p : PackageComponents} : o.finish = .ok p ↔
    o.packageName = some p.packageName ∧ p.components =
      o.declared.reverse.map (·.toComponent p.packageName o.applicationEnabled) := by
  rw [finish]
  cases o.packageName with
  | none => simp
  | some name =>
    simp only [Except.ok.injEq, Option.some.injEq]
    constructor
    · rintro rfl
      exact ⟨rfl, rfl⟩
    · rintro ⟨rfl, hcomponents⟩
      rw [← hcomponents]

end Outline
end Manifest

open Manifest

variable {document : String}

/-- What is read of a manifest if all its events are taken. -/
theorem readManifest_eq_finish {o : Outline}
    (hfold : (Xml.events document).items.foldlM Outline.push .empty = .ok o)
    (hfailure : (Xml.events document).failure = none) : readManifest document = o.finish := by
  rw [readManifest, hfold]
  simp [hfailure, bind, Except.bind]

/-- A manifest is read if all its events are taken and some package is named. -/
theorem readManifest_eq_ok_iff {p : PackageComponents} :
    readManifest document = .ok p ↔ ∃ o, (Xml.events document).items.foldlM Outline.push .empty =
      .ok o ∧ (Xml.events document).failure = none ∧ o.finish = .ok p := by
  constructor
  · intro h
    rw [readManifest] at h
    cases hfold : (Xml.events document).items.foldlM Outline.push Outline.empty with
    | error e => simp [hfold, bind, Except.bind] at h
    | ok o =>
      cases hfailure : (Xml.events document).failure with
      | some fault => simp [hfold, hfailure, bind, Except.bind] at h
      | none =>
        simp only [hfold, hfailure, bind, Except.bind] at h
        exact ⟨o, rfl, rfl, h⟩
  · rintro ⟨o, hfold, hfailure, hfinish⟩
    rw [readManifest_eq_finish hfold hfailure, hfinish]

end IntentFirewall
