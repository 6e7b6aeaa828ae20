import IntentFirewall.Proofs.Rules.Idempotence
import Mathlib.Data.List.Pairwise

/-!
# Batches of blocking edits

A batch names components with a tag each. The names may come more than once, with different tags.
Then only the last tag of a name counts, although the elements of the others are there afterwards:
each of them was needed at some point of the batch.

## Main definitions

* `RuleStore.lastEntries`: the entries that count.
* `Document.prepare`: makes sure that a document has a blocking element of a tag.

## Main results

* `RuleStore.blocked_eq_foldl`: what a batch makes of a document, in closed form.
* `RuleStore.blockAll_blockAll`: a batch that is made twice.
-/

namespace IntentFirewall
namespace RuleStore

/-- The entries of a batch that have no other one with the same name behind them. -/
def lastEntries (entries : List (RuleTag × String)) : List (RuleTag × String) :=
  entries.pwFilter fun e e' => e.2 ≠ e'.2

section

variable {e : RuleTag × String} {entries : List (RuleTag × String)}

theorem forall_mem_lastEntries_iff :
    (∀ e' ∈ lastEntries entries, e.2 ≠ e'.2) ↔ e.2 ∉ entries.map Prod.snd := by
  rw [lastEntries, List.forall_mem_pwFilter]
  · constructor
    · intro h hmem
      obtain ⟨e', he', heq⟩ := List.mem_map.1 hmem
      exact h e' he' heq.symm
    · intro h e' he' heq
      exact h (heq ▸ List.mem_map_of_mem he')
  · intro a b c h
    by_cases hab : a.2 = b.2
    · exact .inr (hab ▸ h)
    · exact .inl hab

theorem lastEntries_cons_of_mem (h : e.2 ∈ entries.map Prod.snd) :
    lastEntries (e :: entries) = lastEntries entries :=
  List.pwFilter_cons_of_neg fun hall => forall_mem_lastEntries_iff.1 hall h

theorem lastEntries_cons_of_not_mem (h : e.2 ∉ entries.map Prod.snd) :
    lastEntries (e :: entries) = e :: lastEntries entries :=
  List.pwFilter_cons_of_pos (forall_mem_lastEntries_iff.2 h)

end

end RuleStore

/-! ## Batches that edit a content -/

namespace Xml.Content

open RuleStore (lastEntries lastEntries_cons_of_mem lastEntries_cons_of_not_mem)

theorem foldl_withoutFilters_addUnder {entries : List (RuleTag × String)} {added : Content}
    (h : ∀ e ∈ entries, added.withoutFilters e.2 = added) (tag : RuleTag) (c : Content) :
    entries.foldl (fun c e => c.withoutFilters e.2) (addUnder tag added c) =
      addUnder tag added (entries.foldl (fun c e => c.withoutFilters e.2) c) := by
  induction entries generalizing c with
  | nil => rfl
  | cons e rest ih =>
    obtain ⟨hadded, hrest⟩ := List.forall_mem_cons.1 h
    rw [List.foldl_cons, List.foldl_cons, withoutFilters_addUnder, hadded, ih hrest]

/-- A batch takes out all filters of its names and makes sure that there are blocking elements of
its tags, before it adds the filters that stay. -/
theorem foldl_block_eq (entries : List (RuleTag × String)) (c : Content) :
    entries.foldl block c =
      (lastEntries entries).foldl (fun c e => c.addBlockFilter e.1 e.2)
        (entries.foldl prepare (entries.foldl (fun c e => c.withoutFilters e.2) c)) := by
  induction entries generalizing c with
  | nil => rfl
  | cons e rest ih =>
    rw [List.foldl_cons, List.foldl_cons, List.foldl_cons]
    by_cases h : e.2 ∈ rest.map Prod.snd
    · -- The filter does not stay where this edit puts it. Only the element is left of the edit.
      obtain ⟨e', hmem, he'⟩ := List.mem_map.1 h
      have hprepared : (c.block e).withoutFilters e.2 =
          ((c.withoutFilters e.2).prepare e).withoutFilters e.2 := by
        rw [withoutFilters_block_self, prepare, withoutFilters_addUnder,
          withoutFilters_withoutFilters_self]
        rfl
      have hnil : ∀ e' ∈ rest, nil.withoutFilters e'.2 = nil := fun _ _ => rfl
      rw [foldl_block_congr ⟨e', hmem, he'⟩ hprepared, ih, lastEntries_cons_of_mem h, prepare,
        foldl_withoutFilters_addUnder hnil, prepare]
    · -- No later edit takes the filter out, so that it can be put there after all of them.
      have hkept : ∀ e' ∈ rest, (ofFilter e.2).withoutFilters e'.2 = ofFilter e.2 := by
        intro e' he'
        exact withoutFilters_ofFilter_of_ne fun heq => h (heq ▸ List.mem_map_of_mem he')
      rw [ih, lastEntries_cons_of_not_mem h, List.foldl_cons, block,
        foldl_withoutFilters_addUnder hkept, ← addUnder_foldl_prepare, prepare,
        addBlockFilter_eq_addUnder]

end Xml.Content

/-! ## Batches that edit a document -/

namespace Document

/-- Makes sure that a document has a blocking element of a tag. The first one does not log. -/
def prepare (d : Document) (tag : RuleTag) : Document :=
  { d with content := Xml.Content.addUnder tag .nil d.content }

/-- Edits that leave the attributes of the root alone edit its content. -/
theorem foldl_content {α : Type} (edit : Xml.Content → α → Xml.Content) (edits : List α)
    (d : Document) :
    edits.foldl (fun d a => { d with content := edit d.content a }) d =
      { d with content := edits.foldl edit d.content } := by
  induction edits generalizing d with
  | nil => rfl
  | cons a rest ih => rw [List.foldl_cons, List.foldl_cons, ih]

end Document

namespace RuleStore

/-- What a batch makes of a document: all filters of its names are gone, there are blocking elements
of its tags, and a filter of each name stands under its last tag, in the order in which the names
have last come. -/
theorem blocked_eq_foldl (entries : List (RuleTag × String)) (d : Document) :
    blocked entries d =
      (lastEntries entries).foldl (fun d e => d.addBlockFilter e.1 e.2)
        (entries.foldl (fun d e => d.prepare e.1)
          (entries.foldl (fun d e => d.withoutFilters e.2) d)) := by
  let removed := entries.foldl (fun c e => c.withoutFilters e.2) d.content
  let prepared := entries.foldl Xml.Content.prepare removed
  let added := (lastEntries entries).foldl (fun c e => c.addBlockFilter e.1 e.2) prepared
  have hremoved : entries.foldl (fun d e => d.withoutFilters e.2) d =
      { d with content := removed } :=
    Document.foldl_content (fun c (e : RuleTag × String) => c.withoutFilters e.2) entries d
  have hprepared : entries.foldl (fun d e => d.prepare e.1) { d with content := removed } =
      { d with content := prepared } :=
    Document.foldl_content Xml.Content.prepare entries { d with content := removed }
  have hadded : (lastEntries entries).foldl (fun d e => d.addBlockFilter e.1 e.2)
      { d with content := prepared } = { d with content := added } :=
    Document.foldl_content (fun c (e : RuleTag × String) => c.addBlockFilter e.1 e.2) _
      { d with content := prepared }
  rw [hremoved, hprepared, hadded, blocked_eq, Xml.Content.foldl_block_eq]

/-- A batch that is made a second time leaves the document exactly as it is, and tells the same of
every component: the first time has already put each filter where it stays, under the last tag of
its name and in the order in which the names have last come. -/
theorem blockAll_blockAll (entries : List (RuleTag × String)) (d : Document) :
    (entries ++ entries).foldl (fun d e => d.block e.1 e.2) d =
        entries.foldl (fun d e => d.block e.1 e.2) d ∧
      blockAll entries (blockAll entries d).2 = blockAll entries d ∧
      entries.foldl (fun d e => d.block e.1 e.2) d =
        (lastEntries entries).foldl (fun d e => d.addBlockFilter e.1 e.2)
          (entries.foldl (fun d e => d.prepare e.1)
            (entries.foldl (fun d e => d.withoutFilters e.2) d)) := by
  have htwice : blocked entries (blocked entries d) = blocked entries d := blocked_blocked entries d
  refine ⟨?_, ?_, blocked_eq_foldl entries d⟩
  · rw [List.foldl_append]
    exact htwice
  · rw [blockAll_eq, blockAll_eq, htwice]

end RuleStore
end IntentFirewall
