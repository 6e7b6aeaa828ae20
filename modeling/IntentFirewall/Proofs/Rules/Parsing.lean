import IntentFirewall.Proofs.Xml.RootElement
import IntentFirewall.Rules.Document

/-!
# How rule documents are parsed

A rule document is built event by event. Its open elements are those that the reader has open, so
that no end tag comes without its element. What is read is a document if one element named `rules`
stands in no other one, and nothing but white space and comments beside it.

## Main definitions

* `Document.ofRoot`: the document of a root element.
* `Document.ParsesInStep`: what holds between two events, and at the end.

## Main results

* `Document.parsesInStep`: that is so of every text which is not blank.
-/

namespace IntentFirewall
namespace Document

open Xml

variable {xml : String}

/-- The document with the root element that has been read. -/
def ofRoot (result : Except ParseError Element) : Except DocumentError Document :=
  match result with
  | .error e => .error (.markup e)
  | .ok root =>
    if root.name = rootTag then .ok ⟨root.attributes, root.children⟩
    else .error (.otherRoot root.name)

theorem parse_eq_ofRoot (h : Text.isBlankText xml = false) : parse xml = ofRoot (readRoot xml) := by
  rw [parse, h]
  rfl

theorem ofRoot_eq_ok_iff {result : Except ParseError Element} {d : Document} :
    ofRoot result = .ok d ↔ result = .ok d.root := by
  unfold ofRoot
  cases result with
  | error e => simp
  | ok root =>
    obtain ⟨name, attributes, children⟩ := root
    obtain ⟨attributes', content⟩ := d
    by_cases hname : name = rootTag <;> simp [hname, Document.root]

theorem ofRoot_ne {result : Except ParseError Element} {e : ParseError} (h : result ≠ .error e) :
    ofRoot result ≠ .error (.markup e) := by
  unfold ofRoot
  cases result with
  | error f => simpa using h
  | ok root =>
    split
    next hroot => cases hroot
    next => split <;> simp

/-- How a text is parsed. -/
structure ParsesInStep (xml : String) : Prop where
  /-- The document or the error is that of the state in which the loop ends. -/
  ends : ∃ es r b result, Steps xml es r b ∧ ending? r b = some result ∧ parse xml = ofRoot result
  /-- In every state the names of the open elements are the reader's open tags, in their order. -/
  openTags : ∀ es r b, Steps xml es r b → b.stack.map (fun e => e.name.toList) = r.openTags
  /-- In every state the root element is set exactly if an element has ended that stands in no
  other one. -/
  root : ∀ es r b, Steps xml es r b → (b.root.isSome = true ↔ HasEnded es)
  /-- In no state the next event is an end tag without its element. -/
  push : ∀ es r b e r', Steps xml es r b → r.next = .ok (some (e, r')) →
    b.push e ≠ .error .unbalancedEnd
  /-- So this is not why a text is no document. -/
  balanced : parse xml ≠ .error (.markup .unbalancedEnd)
  /-- A text is a document exactly if one element stands in no other one, which is named `rules`,
  nothing but white space stands outside it, and all markup can be read. -/
  accepts : (∃ d, parse xml = .ok d) ↔ HasRoot (events xml) rootTag.toList
  /-- The elements of a document are the start tags that were read, in their order. -/
  elements : ∀ d, parse xml = .ok d → (startTags (events xml).items).map Tag.bracket =
    (d.root :: d.content.descendants).map Element.opening
  /-- There are as many of them. -/
  count : ∀ d, parse xml = .ok d →
    (d.root :: d.content.descendants).length = (startTags (events xml).items).length

/-- A text that is not blank is parsed in step with its reader. -/
theorem parsesInStep (h : Text.isBlankText xml = false) : ParsesInStep xml := by
  have hparse := parse_eq_ofRoot h
  have helements (d : Document) (hd : parse xml = .ok d) :
      (startTags (events xml).items).map Tag.bracket =
        (d.root :: d.content.descendants).map Element.opening := by
    rw [hparse, ofRoot_eq_ok_iff] at hd
    exact map_bracket_startTags hd
  refine
    { ends := ?_
      openTags := fun es r b hsteps => hsteps.openTags_eq
      root := fun es r b hsteps => hsteps.root_isSome_iff
      push := fun es r b e r' hsteps hnext => hsteps.push_ne_unbalancedEnd hnext
      balanced := ?_
      accepts := ?_
      elements := helements
      count := fun d hd => ?_ }
  · obtain ⟨es, r, b, hsteps, hending⟩ := exists_ending xml
    exact ⟨es, r, b, readRoot xml, hsteps, hending, hparse⟩
  · rw [hparse]
    exact ofRoot_ne (readRoot_ne_unbalancedEnd xml)
  · -- A root element of this name is the root element of a document.
    rw [hasRoot_iff, hparse]
    simp only [ofRoot_eq_ok_iff]
    constructor
    · rintro ⟨d, hd⟩
      exact ⟨d.root, hd, rfl⟩
    · rintro ⟨⟨name, attributes, children⟩, hroot, hname⟩
      obtain rfl : name = rootTag := String.toList_injective hname
      exact ⟨⟨attributes, children⟩, hroot⟩
  · simpa using (congrArg List.length (helements d hd)).symm

/-- A document with a comment outside its root element. -/
theorem parsesInStep_comment : let xml := "<!-- --><rules><activity/></rules>"
    Text.isBlankText xml = false ∧ ParsesInStep xml := by
  intro xml
  have hblank : Text.isBlankText xml = false := by decide +kernel
  exact ⟨hblank, parsesInStep hblank⟩

end Document
end IntentFirewall
