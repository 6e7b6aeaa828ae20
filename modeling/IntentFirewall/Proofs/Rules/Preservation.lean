import IntentFirewall.Proofs.Rules.RoundTrip

/-!
# Edits keep a document readable

What has been edited can be written and read back, if that was so before.

* `Document.IsReadable.block`, `Document.IsSealed.block`: blocking a component.
* `Document.IsReadable.withoutFilters`, `Document.IsSealed.withoutFilters`: taking out filters.
-/

namespace IntentFirewall
namespace Xml

/-- Giving an attribute a value adds at most its key. -/
theorem Attributes.mem_keys_set {as : Attributes} {key value k : String} :
    k ∈ (as.set key value).map Prod.fst ↔ k = key ∨ k ∈ as.map Prod.fst := by
  induction as with
  | nil => simp [set]
  | cons a rest ih =>
    rw [set]
    split
    next h => simp [h]
    next => rw [List.map_cons, List.mem_cons, ih, List.map_cons, List.mem_cons, or_left_comm]

theorem Attributes.AreReadable.set {as : Attributes} (h : as.AreReadable) {key : String}
    (hkey : IsKey key.toList) (value : String) : (as.set key value).AreReadable := by
  refine ⟨fun a ha => ?_, ?_⟩
  · rcases Attributes.mem_keys_set.1 (List.mem_map_of_mem ha) with heq | hmem
    · exact heq ▸ hkey
    · obtain ⟨b, hb, heq⟩ := List.mem_map.1 hmem
      exact heq ▸ h.keys b hb
  · have hnodup := h.nodup
    clear h
    induction as with
    | nil => simp [Attributes.set]
    | cons a rest ih =>
      rw [List.map_cons, List.nodup_cons] at hnodup
      rw [Attributes.set]
      split
      next heq =>
        -- The key was there, and only its value has changed.
        rw [List.map_cons, List.nodup_cons]
        exact heq ▸ hnodup
      next hne =>
        rw [List.map_cons, List.nodup_cons]
        refine ⟨fun hmem => ?_, ih hnodup.2⟩
        rcases Attributes.mem_keys_set.1 hmem with heq | hmem
        · exact hne heq
        · exact hnodup.1 hmem

theorem Attributes.set_ne_nil (as : Attributes) (key value : String) : as.set key value ≠ [] := by
  cases as with
  | nil => simp [set]
  | cons a rest =>
    rw [set]
    split <;> simp

namespace Content

open Element

/-- The name of a rule element is a name of XML. -/
theorem isXmlName_name (tag : RuleTag) : IsXmlName tag.name := by
  cases tag <;> decide

theorem isXmlName_logKey : IsXmlName logKey := by decide

theorem isWellNamed_ofFilter (filter : String) : (ofFilter filter).IsWellNamed := by
  have hkey : IsXmlName nameKey := by decide
  refine ⟨by decide, ⟨fun a ha => ?_, by simp⟩, trivial, trivial⟩
  rw [List.mem_singleton.1 ha]
  exact hkey

/-- A new rule element is well-named. -/
theorem isWellNamed_addBlockFilter_nil (tag : RuleTag) (filter : String) :
    (nil.addBlockFilter tag filter).IsWellNamed :=
  ⟨isXmlName_name tag, by decide, isWellNamed_ofFilter filter, trivial⟩

/-! ## Taking out filters -/

variable {c d : Content}

theorem IsReadable.withoutFilters (h : c.IsReadable) (filter : String) :
    (c.withoutFilters filter).IsReadable := by
  induction c with
  | nil => trivial
  | element name attributes children rest ihChildren ihRest =>
    obtain ⟨htag, hname, hchildren, hrest⟩ := h
    rw [Content.withoutFilters]
    split
    · exact ihRest hrest
    · -- What has content behind the edit had content before it.
      refine ⟨htag, fun hne => hname ?_, ihChildren hchildren, ihRest hrest⟩
      rintro rfl
      exact hne rfl
  | text t rest ih => exact ih h
  | comment t rest ih => exact ⟨h.1, ih h.2⟩

theorem IsSealed.withoutFilters (h : c.IsSealed) (filter : String) :
    (c.withoutFilters filter).IsSealed := by
  induction c with
  | nil => trivial
  | element name attributes children rest ihChildren ihRest =>
    obtain ⟨⟨hquotes, hnamed, hslash⟩, hchildren, hrest⟩ := h
    rw [Content.withoutFilters]
    split
    · exact ihRest hrest
    · -- An element that has lost its last filter is written as a tag that closes itself.
      refine ⟨⟨hquotes, hnamed, fun hnone hne => hslash hnone ?_⟩, ihChildren hchildren,
        ihRest hrest⟩
      rintro rfl
      exact hne rfl
  | text t rest ih => exact ih h
  | comment t rest ih => exact ih h

/-! ## Adding a filter -/

theorem IsReadable.append (hc : c.IsReadable) (hd : d.IsReadable) : (c.append d).IsReadable := by
  induction c with
  | nil => exact hd
  | element name attributes children rest ihChildren ihRest =>
    obtain ⟨htag, hname, hchildren, hrest⟩ := hc
    exact ⟨htag, hname, hchildren, ihRest hrest⟩
  | text t rest ih => exact ih hc
  | comment t rest ih => exact ⟨hc.1, ih hc.2⟩

theorem IsSealed.append (hc : c.IsSealed) (hd : d.IsSealed) : (c.append d).IsSealed := by
  induction c with
  | nil => exact hd
  | element name attributes children rest ihChildren ihRest =>
    exact ⟨hc.1, hc.2.1, ihRest hc.2.2⟩
  | text t rest ih => exact ih hc
  | comment t rest ih => exact ih hc

theorem IsReadable.addBlockFilter (h : c.IsReadable) (tag : RuleTag) (filter : String) :
    (c.addBlockFilter tag filter).IsReadable := by
  induction c with
  | nil => exact (isWellNamed_addBlockFilter_nil tag filter).isReadable
  | element name attributes children rest ihChildren ihRest =>
    obtain ⟨htag, hname, hchildren, hrest⟩ := h
    rw [Content.addBlockFilter]
    split
    next hrule =>
      obtain rfl : name = tag.name := by simpa [isRule] using (Bool.and_eq_true_iff.1 hrule).1
      exact ⟨⟨htag.isName, htag.start, htag.areReadable.set isXmlName_logKey.isKey "false"⟩,
        fun _ => (isXmlName_name tag).pass,
        hchildren.append (isWellNamed_ofFilter filter).isReadable, hrest⟩
    · exact ⟨htag, hname, hchildren, ihRest hrest⟩
  | text t rest ih => exact ih h
  | comment t rest ih => exact ⟨h.1, ih h.2⟩

theorem IsSealed.addBlockFilter (h : c.IsSealed) (tag : RuleTag) (filter : String) :
    (c.addBlockFilter tag filter).IsSealed := by
  induction c with
  | nil => exact (isWellNamed_addBlockFilter_nil tag filter).isSealed
  | element name attributes children rest ihChildren ihRest =>
    obtain ⟨htag, hchildren, hrest⟩ := h
    rw [Content.addBlockFilter]
    split
    · -- The log flag that is set leaves no tag without attributes.
      refine ⟨⟨?_, fun hnone => ?_, fun hnone => ?_⟩,
        hchildren.append (isWellNamed_ofFilter filter).isSealed, hrest⟩
      · exact pass_printTag_set (fun _ hc => isXmlName_logKey.plain hc) htag.quotes "false"
      · exact absurd hnone (attributes.set_ne_nil logKey "false")
      · exact absurd hnone (attributes.set_ne_nil logKey "false")
    · exact ⟨htag, hchildren, ihRest hrest⟩
  | text t rest ih => exact ih h
  | comment t rest ih => exact ih h

end Content
end Xml

/-! ## Documents -/

namespace Document

variable {d : Document}

theorem IsReadable.withoutFilters (h : d.IsReadable) (filter : String) :
    (d.withoutFilters filter).IsReadable :=
  ⟨h.attributes, h.content.withoutFilters filter⟩

theorem IsSealed.withoutFilters (h : d.IsSealed) (filter : String) :
    (d.withoutFilters filter).IsSealed :=
  ⟨h.quotes, h.content.withoutFilters filter⟩

theorem IsReadable.block (h : d.IsReadable) (tag : RuleTag) (filter : String) :
    (d.block tag filter).IsReadable :=
  ⟨h.attributes, (h.content.withoutFilters filter).addBlockFilter tag filter⟩

theorem IsSealed.block (h : d.IsSealed) (tag : RuleTag) (filter : String) :
    (d.block tag filter).IsSealed :=
  ⟨h.quotes, (h.content.withoutFilters filter).addBlockFilter tag filter⟩

end Document
end IntentFirewall
