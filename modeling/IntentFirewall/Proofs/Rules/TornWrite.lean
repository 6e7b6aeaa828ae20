import IntentFirewall.Proofs.Rules.RoundTrip
import IntentFirewall.Proofs.Xml.Prefix

/-!
# Rule files that were not written to their end

A write can be torn: only the first bytes of it reach the file. The root element of a rule document
is open until its last `>`, so that the bytes before that are no document, wherever they end. Only
the line break behind it may be missing.

* `Document.body`: the text of a document up to its end tag.
* `Document.exists_error_of_torn`: what breaks off before the last `>` is refused.
* `Document.ofBytes_of_prefix`: what the first bytes of a document are read as.
-/

namespace IntentFirewall

open Utf8 (encode encodeString encode_append)

namespace Document

open Xml

/-- The text of a document up to its end tag. -/
def body (d : Document) : List Char :=
  '<' :: printTag rootTag d.attributes ++ '>' :: d.content.print 1 false ++
    breakUnless d.content.endsInText 0

theorem markup_root (d : Document) : d.root.markup = d.body ++ "</rules>".toList := by
  have htag : "</rules>".toList = printEndTag rootTag := rfl
  rw [htag]
  rfl

theorem toBytes_eq (d : Document) : d.toBytes = encode d.body ++ encodeString "</rules>\n" := by
  have htag : "</rules>\n".toList = "</rules>".toList ++ ['\n'] := rfl
  rw [toBytes, Element.print_eq_markup, markup_root, encodeString, htag, List.append_assoc,
    encode_append]

variable {d : Document}

/-- What begins like the text of a document is not blank. -/
theorem isBlankText_of_prefix {part : List Char} (hne : part ≠ [])
    (h : part <+: d.body ++ "</rules>".toList) : Text.isBlankText (String.ofList part) = false := by
  obtain ⟨c, cs, rfl⟩ := List.exists_cons_of_ne_nil hne
  obtain rfl : c = '<' := (List.cons_prefix_cons.1 h).1
  rw [Text.isBlankText, String.toList_ofList, List.all_cons]
  rfl

/-- A text that breaks off before the last `>` of a document has no root element. -/
theorem exists_error_of_readRoot_prefix (hreadable : d.IsReadable) (hsealed : d.IsSealed)
    {part : List Char} (h : part <+: d.body ++ "</rules".toList) :
    ∃ e, readRoot (String.ofList part) = .error e := by
  obtain ⟨missing, hmissing⟩ := h
  have hwhole : d.root.markup ++ [] = part ++ (missing ++ ['>']) := by
    have htag : "</rules>".toList = "</rules".toList ++ ['>'] := rfl
    rw [List.append_nil, markup_root, htag, ← List.append_assoc, ← hmissing, List.append_assoc]
  have hroot := readRoot_markup d.root isXmlName_rootTag hreadable.attributes hsealed.quotes
    hreadable.content hsealed.content.isDelimited [] rfl
  have hevents := events_markup d.root isXmlName_rootTag hreadable.attributes hsealed.quotes
    hreadable.content hsealed.content.isDelimited [] rfl
  rw [hwhole] at hroot hevents
  refine exists_error_of_readRoot_append hroot ?_ ?_
  · rw [hevents, List.getLast?_concat]
  · rw [skipSpace, ne_eq, List.dropWhile_eq_nil_iff]
    intro hall
    exact absurd (hall '>' (by simp)) (by decide)

/-- Bytes that break off before the last `>` of a document are no document, wherever they end. -/
theorem exists_error_of_torn (hreadable : d.IsReadable) (hsealed : d.IsSealed) {bytes : List UInt8}
    (hne : bytes ≠ []) (h : bytes <+: encode d.body ++ encodeString "</rules") :
    ∃ e, ofBytes bytes = .error e := by
  rw [encodeString, ← encode_append] at h
  rcases Utf8.decodeFrom_of_prefix h with ⟨part, hpart, rfl⟩ | herror
  · obtain ⟨e, he⟩ := exists_error_of_readRoot_prefix hreadable hsealed hpart
    have hpartne : part ≠ [] := by
      rintro rfl
      exact hne rfl
    have hprefix : part <+: d.body ++ "</rules>".toList := by
      have htag : "</rules>".toList = "</rules".toList ++ ['>'] := rfl
      rw [htag, ← List.append_assoc]
      exact hpart.trans (List.prefix_append _ _)
    refine ⟨.markup e, ?_⟩
    simp only [ofBytes, Utf8.decodeString_encode, parse, isBlankText_of_prefix hpartne hprefix, he]
    rfl
  · -- The bytes end inside a character.
    obtain ⟨e, he⟩ := herror 0 []
    refine ⟨.encoding e, ?_⟩
    rw [ofBytes, Utf8.decodeString, Utf8.decode, he]
    rfl

/-- A document is read back without the line break at its end. -/
theorem ofBytes_markup (hreadable : d.IsReadable) (hsealed : d.IsSealed) :
    ofBytes (encode d.body ++ encodeString "</rules>") = .ok d.normal := by
  have hroot := readRoot_markup d.root isXmlName_rootTag hreadable.attributes hsealed.quotes
    hreadable.content hsealed.content.isDelimited [] rfl
  rw [List.append_nil, markup_root] at hroot
  have hblank : Text.isBlankText (String.ofList (d.body ++ "</rules>".toList)) = false :=
    isBlankText_of_prefix (by simp) List.prefix_rfl
  rw [encodeString, ← encode_append, ofBytes, Utf8.decodeString_encode]
  simp only [parse, hblank, hroot]
  rfl

/-- The first bytes of a document are refused, but for none and for all, of which the line break at
the end may be missing. -/
theorem ofBytes_of_prefix (h : d.IsWellNamed) :
    d.toBytes = encode d.body ++ encodeString "</rules>\n" ∧
      (∀ bytes, bytes ≠ [] → bytes <+: encode d.body ++ encodeString "</rules" →
        ∃ e, ofBytes bytes = .error e) ∧
      ofBytes (encode d.body ++ encodeString "</rules>") = ofBytes d.toBytes ∧
      ofBytes d.toBytes = .ok d.normal ∧
      ∀ bytes, bytes <+: d.toBytes →
        bytes = [] ∨ (∃ e, ofBytes bytes = .error e) ∨ ofBytes bytes = .ok d.normal := by
  have htorn (bytes : List UInt8) (hne : bytes ≠ [])
      (hshort : bytes <+: encode d.body ++ encodeString "</rules") : ∃ e, ofBytes bytes = .error e :=
    exists_error_of_torn h.isReadable h.isSealed hne hshort
  have hmarkup := ofBytes_markup h.isReadable h.isSealed
  have hwhole := ofBytes_toBytes h.isReadable h.isSealed
  refine ⟨d.toBytes_eq, htorn, hmarkup.trans hwhole.symm, hwhole, fun bytes hbytes => ?_⟩
  -- All is there, or the line break is missing, or more than that.
  have hbreak : encodeString "</rules>\n" = encodeString "</rules>" ++ [10] := rfl
  have hend : encodeString "</rules>" = encodeString "</rules" ++ [62] := rfl
  rw [toBytes_eq, hbreak, ← List.append_assoc, List.prefix_concat_iff, hend, ← List.append_assoc,
    List.prefix_concat_iff] at hbytes
  rcases hbytes with rfl | rfl | hshort
  · rw [toBytes_eq, hbreak, hend] at hwhole
    exact .inr (.inr (by simpa using hwhole))
  · rw [hend, ← List.append_assoc] at hmarkup
    exact .inr (.inr hmarkup)
  · by_cases hne : bytes = []
    · exact .inl hne
    · exact .inr (.inl (htorn bytes hne hshort))

/-- A document with a comment that holds a `>` and a value of two bytes is refused if it breaks off
between these bytes, or in its end tag. -/
theorem ofBytes_of_prefix_comment :
    let d : Document := ⟨[], .comment " > " (.element "activity" [("block", "é")] .nil .nil)⟩
    d.IsWellNamed ∧
      (∃ e, ofBytes (encodeString "<rules>\n    <!-- > -->\n    <activity block=\"" ++ [0xC3]) =
        .error e) ∧
      (∃ e, ofBytes (encode d.body ++ encodeString "</ru") = .error e) ∧
      ofBytes (encode d.body ++ encodeString "</rules>") = .ok d := by
  intro d
  have hd : d.IsWellNamed :=
    ⟨⟨by decide, by decide⟩, by decide, by decide, ⟨by decide, by decide⟩, trivial, trivial⟩
  obtain ⟨-, htorn, hbreak, hwhole, -⟩ := ofBytes_of_prefix hd
  exact ⟨hd, htorn _ (by decide) (by decide), htorn _ (by decide) (by decide), hbreak.trans hwhole⟩

end Document
end IntentFirewall
