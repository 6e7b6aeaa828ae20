import IntentFirewall.Proofs.Text.Sigma
import IntentFirewall.Proofs.Tracker.Report

/-!
# Trackers that a keyword finds

A keyword lets a tracker through if it occurs in one of its texts, both in lower case. What has the
keyword letter for letter is found like that, but for a keyword with a capital sigma: it is written
in lower case as if it stood alone, and the text around it can make another letter of it.

* `Tracker.texts`: the texts in which a keyword is looked for.
* `SignatureDatabase.mem_report_of_literal`: which trackers with a keyword in their texts are found.
* `SignatureDatabase.mem_report_of_literal_ne`: one that is not.
-/

namespace IntentFirewall

/-- The texts of a tracker in which a keyword is looked for. -/
def Tracker.texts (t : Tracker) : List String := [t.componentName, t.category, t.signatureName]

/-- A keyword occurs in a tracker if it occurs in one of its texts. -/
theorem Tracker.mentions_iff {t : Tracker} {part : String} : t.mentions part = true ↔
    ∃ text ∈ t.texts, part.toList <:+: (Text.lowercase text).toList := by
  simp only [mentions, texts, Bool.or_eq_true, Text.occursIn_iff, List.exists_mem_cons_iff,
    List.not_mem_nil, false_and, exists_false, or_false, or_assoc]

namespace SignatureDatabase

variable {db : SignatureDatabase} {components : List Component} {t : Tracker}

/-- Without a keyword all trackers are let through that are found. -/
theorem mem_report_empty_iff : t ∈ (db.report components "").trackers ↔ t ∈ db.found components := by
  rw [report, List.mem_mergeSort, mem_filterBy_iff]
  simp

/-- A keyword lets those of them through in whose texts it occurs in lower case. -/
theorem mem_report_iff_of_mem (ht : t ∈ (db.report components "").trackers) (keyword : String) :
    t ∈ (db.report components keyword).trackers ↔
      ∃ text ∈ t.texts, (Text.lowercase keyword).toList <:+: (Text.lowercase text).toList := by
  rw [report, List.mem_mergeSort, mem_filterBy_iff, Tracker.mentions_iff]
  constructor
  · rintro ⟨-, rfl | htext⟩
    · -- Nothing occurs everywhere.
      exact ⟨t.componentName, List.mem_cons_self, List.nil_infix⟩
    · exact htext
  · intro htext
    exact ⟨mem_report_empty_iff.1 ht, .inr htext⟩

/-- Which trackers with a keyword in their texts are found. Without a capital sigma in the keyword
all of them are. A text that has the keyword letter for letter has some form of it in lower case at
that place, and this is the form that is looked for exactly if no sigma of the keyword changes
there. So a tracker is found by what its texts hold letter for letter, unless at every such place a
sigma changes. -/
theorem mem_report_of_literal (ht : t ∈ (db.report components "").trackers) (keyword : String) :
    (t ∈ (db.report components keyword).trackers ↔
      ∃ text ∈ t.texts, (Text.lowercase keyword).toList <:+: (Text.lowercase text).toList) ∧
    ('Σ' ∉ keyword.toList → ∀ text ∈ t.texts, keyword.toList <:+: text.toList →
      t ∈ (db.report components keyword).trackers) ∧
    ∀ text ∈ t.texts, ∀ before after, text.toList = before ++ keyword.toList ++ after →
      (Text.lowercase text).toList = Text.lowerWithin [] before (keyword.toList ++ after) ++
        Text.lowerWithin before keyword.toList after ++
          Text.lowerWithin (before ++ keyword.toList) after [] ∧
      (Text.lowerWithin before keyword.toList after = (Text.lowercase keyword).toList ↔
        ¬Text.ChangesSigma before keyword.toList after) ∧
      (¬Text.ChangesSigma before keyword.toList after →
        t ∈ (db.report components keyword).trackers) := by
  have hreport := mem_report_iff_of_mem ht keyword
  have hfound {text : String} (htext : text ∈ t.texts) {before after : List Char}
      (hplace : text.toList = before ++ keyword.toList ++ after)
      (hsigma : ¬Text.ChangesSigma before keyword.toList after) :
      t ∈ (db.report components keyword).trackers := by
    refine hreport.2 ⟨text, htext, ?_⟩
    rw [Text.lowercase_eq_append hplace, Text.lowerWithin_eq_lowercase_iff.2 hsigma]
    exact List.infix_append _ _ _
  refine ⟨hreport, ?_, fun text htext before after hplace => ⟨Text.lowercase_eq_append hplace,
    Text.lowerWithin_eq_lowercase_iff, hfound htext hplace⟩⟩
  rintro hplain text htext ⟨before, after, hplace⟩
  exact hfound htext hplace.symm (Text.not_changesSigma_of_not_mem hplain)

/-- A keyword that ends in a sigma, as does the class name that it is found in. -/
theorem mem_report_of_literal_end :
    let ads : Signature := ⟨none, "Ads", ["ads."], "profiling", none⟩
    let db : SignatureDatabase := ⟨[ads], [⟨"ads.", 0, ads⟩]⟩
    let street : Component := ⟨.activity, "org.ads.ΟΔΟΣ", false, true⟩
    let t := Tracker.ofMatch street ads
    t ∈ (db.report [street] "").trackers ∧
      "org.ads.ΟΔΟΣ".toList = "org.ads.Ο".toList ++ "ΔΟΣ".toList ++ [] ∧
        ¬Text.ChangesSigma "org.ads.Ο".toList "ΔΟΣ".toList [] ∧
          t ∈ (db.report [street] "ΔΟΣ").trackers := by
  intro ads db street t
  have ht : t ∈ (db.report [street] "").trackers :=
    mem_report_iff.2 ⟨street, ads, by decide, by decide +kernel, .inl rfl, rfl⟩
  have hplace : "org.ads.ΟΔΟΣ".toList = "org.ads.Ο".toList ++ "ΔΟΣ".toList ++ [] := by decide
  have hsigma : ¬Text.ChangesSigma "org.ads.Ο".toList "ΔΟΣ".toList [] :=
    Text.lowerWithin_eq_lowercase_iff.1 (by decide +kernel)
  have hplaces := (mem_report_of_literal ht "ΔΟΣ").2.2 "org.ads.ΟΔΟΣ" List.mem_cons_self
  exact ⟨ht, hplace, hsigma, (hplaces _ _ hplace).2.2 hsigma⟩

/-- A keyword that is a sigma does not find a class name that ends in one: alone it is an inner
sigma, and in the name a final one. -/
theorem mem_report_of_literal_ne :
    let ads : Signature := ⟨none, "T", ["com.t."], "ads", none⟩
    let db : SignatureDatabase := ⟨[ads], [⟨"com.t.", 0, ads⟩]⟩
    let tail : Component := ⟨.activity, "com.t.ΑΣ", false, true⟩
    let t := Tracker.ofMatch tail ads
    t ∈ (db.report [tail] "").trackers ∧ "Σ".toList <:+: t.componentName.toList ∧
      t ∉ (db.report [tail] "Σ").trackers := by
  intro ads db tail t
  have ht : t ∈ (db.report [tail] "").trackers :=
    mem_report_iff.2 ⟨tail, ads, by decide, by decide +kernel, .inl rfl, rfl⟩
  refine ⟨ht, ⟨"com.t.Α".toList, [], by decide⟩, fun hmem => ?_⟩
  rw [report, List.mem_mergeSort, mem_filterBy_iff] at hmem
  have hmentions : t.mentions (Text.lowercase "Σ") = false := by decide +kernel
  simp [hmentions] at hmem

end SignatureDatabase
end IntentFirewall
