import IntentFirewall.Proofs.Text.Utf8
import IntentFirewall.Proofs.Xml.Parsed
import IntentFirewall.Proofs.Xml.RoundTrip
import IntentFirewall.Rules.Document

/-!
# Reading a written rule document

A rule document is read back in normal form: adjacent texts are one, the white space at the ends
of a text is gone, and so are texts of white space only. Everything else is as it was.

* `Document.IsReadable`, `Document.IsSealed`: what a document has to fulfil for that. Everything
  that is read from a file fulfils the first.
* `Document.isReadable_of_ofBytes`: that is so.
* `Document.parse_toXml`, `Document.ofBytes_toBytes`: reading what was written.
* `Document.parse_toXml_of_isWellNamed`: documents whose names are names of XML.
-/

namespace IntentFirewall
namespace Document

open Xml

/-- The normal form of a document. -/
def normal (d : Document) : Document := { d with content := d.content.normal }

/-- The names, keys and comments of a document are such as reading finds in a file. -/
structure IsReadable (d : Document) : Prop where
  /-- The attributes of the root element can stand in one tag. -/
  attributes : d.attributes.AreReadable
  /-- So does everything in the root element. -/
  content : d.content.IsReadable

/-- Every tag of a document ends where it should, once it is written. -/
structure IsSealed (d : Document) : Prop where
  /-- The tag of the root element does. -/
  quotes : tagEnding.pass none (printTag rootTag d.attributes) = some none
  /-- The tags in the root element do. -/
  content : d.content.IsSealed

/-- The elements and attributes of a document are named as XML demands it. -/
structure IsWellNamed (d : Document) : Prop where
  /-- The attributes of the root element are. -/
  attributes : d.attributes.AreWellNamed
  /-- Everything in the root element is. -/
  content : d.content.IsWellNamed

theorem isXmlName_rootTag : IsXmlName rootTag := by decide

theorem IsWellNamed.isReadable {d : Document} (h : d.IsWellNamed) : d.IsReadable :=
  ⟨h.attributes.areReadable, h.content.isReadable⟩

theorem IsWellNamed.isSealed {d : Document} (h : d.IsWellNamed) : d.IsSealed :=
  ⟨h.attributes.pass_printTag fun _ hc => isXmlName_rootTag.plain hc, h.content.isSealed⟩

/-- A document is its own normal form exactly if its content is in normal form. -/
theorem normal_eq_self_iff {d : Document} : d.normal = d ↔ d.content.IsNormal := by
  rw [← Content.normal_eq_self_iff, normal]
  cases d
  simp

theorem normal_normal (d : Document) : d.normal.normal = d.normal :=
  normal_eq_self_iff.2 d.content.isNormal_normal

theorem isReadable_empty : empty.IsReadable :=
  ⟨⟨by simp [empty], by simp [empty]⟩, Content.isReadable_nil⟩

theorem isSealed_empty : empty.IsSealed := ⟨by decide, trivial⟩

theorem isReadable_of_parse {xml : String} {d : Document} (h : parse xml = .ok d) :
    d.IsReadable := by
  rw [parse] at h
  split at h
  · -- A blank text stands for a document without content.
    obtain rfl := Except.ok.inj h
    exact isReadable_empty
  · split at h
    · simp at h
    next root hroot =>
      split at h
      · obtain rfl := Except.ok.inj h
        obtain ⟨hattributes, hcontent⟩ := isReadable_of_readRoot hroot
        exact ⟨hattributes, hcontent⟩
      · simp at h

/-- Every document that is read from a file is readable. -/
theorem isReadable_of_ofBytes {bytes : List UInt8} {d : Document} (h : ofBytes bytes = .ok d) :
    d.IsReadable := by
  rw [ofBytes] at h
  split at h
  · simp at h
  · exact isReadable_of_parse h

/-- What is written is not blank. -/
theorem isBlankText_toXml (d : Document) : Text.isBlankText d.toXml = false := by
  have htext : d.root.print = '<' :: d.root.print.tail := rfl
  rw [Text.isBlankText, toXml, String.toList_ofList, htext, List.all_cons]
  rfl

/-- A document is read back in normal form. -/
theorem parse_toXml {d : Document} (hreadable : d.IsReadable) (hsealed : d.IsSealed) :
    parse d.toXml = .ok d.normal := by
  have hroot := readRoot_print d.root isXmlName_rootTag hreadable.attributes
    hsealed.quotes hreadable.content hsealed.content.isDelimited
  rw [parse, isBlankText_toXml, toXml, hroot]
  rfl

/-- A document is read back from its bytes in normal form. -/
theorem ofBytes_toBytes {d : Document} (hreadable : d.IsReadable) (hsealed : d.IsSealed) :
    ofBytes d.toBytes = .ok d.normal := by
  rw [ofBytes, toBytes, Utf8.decodeString_encode]
  exact parse_toXml hreadable hsealed

/-! ## Well-named documents -/

/-- A document whose names are names of XML is read back in normal form. One in normal form is
read back as it is, and its text is written again. -/
theorem parse_toXml_of_isWellNamed {d : Document} (h : d.IsWellNamed) :
    parse d.toXml = .ok d.normal ∧ d.normal.normal = d.normal ∧
      (d.normal = d → parse d.toXml = .ok d ∧ (parse d.toXml).map toXml = .ok d.toXml) := by
  have hparse := parse_toXml h.isReadable h.isSealed
  refine ⟨hparse, d.normal_normal, fun hnormal => ?_⟩
  rw [hnormal] at hparse
  rw [hparse]
  exact ⟨rfl, rfl⟩

/-- Two texts are merged, a blank one is dropped, and a nested element keeps its attributes. What
comes out is read back as it is. -/
theorem parse_toXml_of_isWellNamed_mixed :
    let d : Document := ⟨[("v", "1")], .text " a" (.text "<b> " (.comment " - " (.element "x"
      [("k", "\"1\" & '2'")] (.element "y.z" [] .nil (.text "\n" .nil)) .nil)))⟩
    let n : Document := ⟨[("v", "1")], .text "a<b>" (.comment " - " (.element "x"
      [("k", "\"1\" & '2'")] (.element "y.z" [] .nil .nil) .nil))⟩
    (d.IsWellNamed ∧ parse d.toXml = .ok n) ∧ n.IsWellNamed ∧ n.normal = n ∧
      parse n.toXml = .ok n ∧ (parse n.toXml).map toXml = .ok n.toXml := by
  intro d n
  have hd : d.IsWellNamed :=
    ⟨by decide, by decide,
      ⟨by decide, by decide, ⟨by decide, by decide, trivial, trivial⟩, trivial⟩⟩
  have hn : n.IsWellNamed :=
    ⟨by decide, by decide,
      ⟨by decide, by decide, ⟨by decide, by decide, trivial, trivial⟩, trivial⟩⟩
  exact ⟨⟨hd, (parse_toXml_of_isWellNamed hd).1⟩, hn, rfl, (parse_toXml_of_isWellNamed hn).2.2 rfl⟩

end Document
end IntentFirewall
