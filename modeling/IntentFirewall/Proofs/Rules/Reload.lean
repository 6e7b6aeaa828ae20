import IntentFirewall.Proofs.Rules.Block
import IntentFirewall.Proofs.Rules.Calls
import IntentFirewall.Proofs.Xml.Delimited

/-!
# Rule files that are loaded again

Every successful call writes the edited document. Whether that document is found in the file
afterwards depends on its tags: the reader takes more for a tag than the writer can tell apart.

* `Document.IsDelimited`: the tags of a document end where they should, once it is written.
* `Document.ofBytes_toBytes_iff`: exactly these documents are read back.
* `RuleStore.document_carryOut`: what is in the rule file behind a call that has written it.
-/

namespace IntentFirewall
namespace Document

open Xml

/-- Every tag of a document, as it stands, ends where it should, once it is written. -/
structure IsDelimited (d : Document) : Prop where
  /-- The tag of the root element does. -/
  quotes : tagEnding.pass none (printTag rootTag d.attributes) = some none
  /-- The tags in the root element do. -/
  content : d.content.IsDelimited

instance (d : Document) : Decidable d.IsDelimited :=
  decidable_of_iff (tagEnding.pass none (printTag rootTag d.attributes) = some none ∧
    d.content.IsDelimited) ⟨fun h => ⟨h.1, h.2⟩, fun h => ⟨h.quotes, h.content⟩⟩

theorem IsSealed.isDelimited {d : Document} (h : d.IsSealed) : d.IsDelimited :=
  ⟨h.quotes, h.content.isDelimited⟩

/-- A readable document is read back in normal form exactly if its tags end where they should. -/
theorem parse_toXml_iff {d : Document} (hreadable : d.IsReadable) :
    parse d.toXml = .ok d.normal ↔ d.IsDelimited := by
  constructor
  · intro h
    rw [parse, isBlankText_toXml] at h
    simp only [Bool.false_eq_true, if_false] at h
    split at h
    · simp at h
    next root hroot =>
      split at h
      next hname =>
        -- The root element that is read has the brackets of the one that was written.
        have hnormal := Except.ok.inj h
        have hbrackets : root.brackets = d.root.brackets := by
          obtain ⟨hattributes, hchildren⟩ := Document.mk.inj hnormal
          rw [Element.brackets, hname, hattributes, hchildren, Content.brackets_normal]
          rfl
        obtain ⟨hquotes, hcontent⟩ := isDelimited_of_readRoot_print
          (isXmlName_rootTag.isReadableTag hreadable.attributes) hreadable.content hroot hbrackets
        exact ⟨hquotes, hcontent⟩
      · simp at h
  · intro h
    have hroot := readRoot_print d.root isXmlName_rootTag hreadable.attributes h.quotes
      hreadable.content h.content
    rw [parse, isBlankText_toXml, toXml, hroot]
    rfl

theorem ofBytes_toBytes_iff {d : Document} (hreadable : d.IsReadable) :
    ofBytes d.toBytes = .ok d.normal ↔ d.IsDelimited := by
  rw [ofBytes, toBytes, Utf8.decodeString_encode]
  exact parse_toXml_iff hreadable

end Document

/-! ## Calls -/

namespace RuleStore

variable {store : RuleStore} {packageName : String} {c : Call} {u u' : Unreliable Memory}
  {a : Answer}

/-- The rule sets of a document are found in the file that it has been written to, if its tags end
where they should. -/
theorem ruleSets_rewritten_of_isDelimited (m : Memory) {d : Document} (hreadable : d.IsReadable)
    (hdelimited : d.IsDelimited) :
    (store.document packageName (m.rewritten (store.rulesFile packageName) d.toBytes)).map
      Document.ruleSets = .ok d.ruleSets := by
  rw [document_rewritten_eq, (Document.ofBytes_toBytes_iff hreadable).2 hdelimited, Except.map,
    Document.ruleSets_normal]

/-- A call that succeeds has edited the document in the rule file, or there was nothing to do. -/
theorem exists_of_carryOut_ok (hcall : store.carryOut packageName c u = (.ok a, u')) :
    (c = .block [] ∨ a = .unblocked .noRulesFile) ∧ u' = u ∨
      ∃ d, store.document packageName u.storage = .ok d ∧
        u'.storage = u.storage.rewritten (store.rulesFile packageName)
          (c.edit packageName d).toBytes := by
  generalize hplan : c.plan packageName = plan
  have hcourse := course_of_carryOut hcall
  rw [hplan] at hcourse
  cases hcourse with
  | settled => exact .inl ⟨.inl (Call.eq_of_plan_settled hplan), rfl⟩
  | missing => exact .inl ⟨.inr rfl, rfl⟩
  | edited _ htransaction =>
    cases htransaction with
    | written _ hdocument => exact .inr ⟨_, hdocument, rfl⟩

/-- A call that has written has edited the document in the rule file. -/
theorem exists_of_carryOut_written (hcall : store.carryOut packageName c u = (.ok a, u'))
    (hwritten : u'.storage.writes ≠ u.storage.writes) :
    ∃ d, store.document packageName u.storage = .ok d ∧
      u'.storage = u.storage.rewritten (store.rulesFile packageName)
        (c.edit packageName d).toBytes := by
  rcases exists_of_carryOut_ok hcall with ⟨-, rfl⟩ | hedited
  · exact absurd rfl hwritten
  · exact hedited

/-- A call that has written leaves a file with the edited document. This document is read back, in
normal form, exactly if its tags end where they should, and then the rule sets in the file are
those of the edited document. A sealed document still is so behind every call. -/
theorem document_carryOut (hcall : store.carryOut packageName c u = (.ok a, u'))
    (hwritten : u'.storage.writes ≠ u.storage.writes) :
    ∃ d, store.document packageName u.storage = .ok d ∧
      u'.storage.contents? (store.rulesFile packageName) =
        some (c.edit packageName d).toBytes ∧
      (store.document packageName u'.storage = .ok (c.edit packageName d).normal ↔
        (c.edit packageName d).IsDelimited) ∧
      ((c.edit packageName d).IsDelimited →
        (store.document packageName u'.storage).map Document.ruleSets =
          .ok (c.edit packageName d).ruleSets) ∧
      (d.IsSealed → (c.edit packageName d).IsDelimited) := by
  obtain ⟨d, hdocument, hstorage⟩ := exists_of_carryOut_written hcall hwritten
  have hreadable := c.isReadable_edit packageName (Document.isReadable_of_ofBytes hdocument)
  have hread := Document.ofBytes_toBytes_iff hreadable
  refine ⟨d, hdocument, ?_, ?_, fun hdelimited => ?_,
    fun hsealed => (c.isSealed_edit packageName hsealed).isDelimited⟩
  · rw [hstorage]
    exact u.storage.contents?_put_self _ _
  · rw [hstorage, document_rewritten_eq]
    exact hread
  · rw [hstorage]
    exact ruleSets_rewritten_of_isDelimited u.storage hreadable hdelimited

/-- A comment and an element whose tag has a quotation mark survive an edit, and short reads do not
matter. -/
theorem document_carryOut_comment :
    let store : RuleStore := ⟨"/ifw"⟩
    let c : Call := .block [⟨"com.t.Ad", .service, "T", none, "ads", false, false, true, true⟩]
    let u : Unreliable Memory := ⟨Memory.empty.put (store.rulesFile "com.app")
      (Utf8.encode "<rules><!-- a --><x k='\"'/></rules>".toList), none, some 5⟩
    let u' := (store.carryOut "com.app" c u).2
    let d : Document := ⟨[], .comment " a " (.element "x" [("k", "\"")] .nil .nil)⟩
    (store.document "com.app" u.storage = .ok d ∧ u'.storage.writes ≠ u.storage.writes) ∧
      store.document "com.app" u'.storage = .ok (c.edit "com.app" d).normal ∧
      (store.document "com.app" u'.storage).map Document.ruleSets =
        .ok (c.edit "com.app" d).ruleSets := by
  intro store c u u' d
  have hdocument : store.document "com.app" u.storage = .ok d := by decide +kernel
  have hrun := store.carryOut_eq_of_plan "com.app" c (u := u) (by rfl) rfl rfl hdocument (by simp)
  have hcall : store.carryOut "com.app" c u = (.ok (.blocked
      [⟨"com.t.Ad", .service, "T", none, "ads", true, false, true, true⟩]), u') :=
    hrun.trans (congrArg _ (congrArg Prod.snd hrun).symm)
  have hwritten : u'.storage.writes ≠ u.storage.writes := by
    rw [show u' = _ from congrArg Prod.snd hrun]
    decide
  obtain ⟨d', hd', -, hread, hsets, hsealed⟩ := document_carryOut hcall hwritten
  obtain rfl : d = d' := Except.ok.inj (hdocument.symm.trans hd')
  have hdelimited : (c.edit "com.app" d).IsDelimited := by decide
  exact ⟨⟨hdocument, hwritten⟩, hread.2 hdelimited, hsets hdelimited⟩

/-- The tag that is written for an element without a name is an end tag. -/
theorem document_carryOut_ne :
    let store : RuleStore := ⟨"/ifw"⟩
    let c : Call := .block [⟨"com.t.Ad", .activity, "T", none, "ads", false, false, true, true⟩]
    let u := Unreliable.reliable (Memory.empty.put (store.rulesFile "com.app")
      (Utf8.encode "<rules>< ></></rules>".toList))
    let u' := (store.carryOut "com.app" c u).2
    (store.document "com.app" u.storage).isOk = true ∧
      (store.carryOut "com.app" c u).1.isOk = true ∧ u'.storage.writes ≠ u.storage.writes ∧
      (store.document "com.app" u'.storage).isOk = false := by
  intro store c u u'
  have hdocument : store.document "com.app" u.storage = .ok ⟨[], .element "" [] .nil .nil⟩ := by
    decide +kernel
  have hrun := store.carryOut_eq_of_plan "com.app" c (u := u) (by rfl) rfl rfl hdocument (by simp)
  have hstorage : u' = _ := congrArg Prod.snd hrun
  rw [hdocument, hstorage, hrun, document_rewritten_eq]
  decide +kernel

end RuleStore
end IntentFirewall
