import IntentFirewall.Proofs.Signature.Lookup
import IntentFirewall.Proofs.Text.Trim

/-!
# Loading signatures

A signature is loaded from an entry that has a name and a fragment, neither of which is blank. What
it has then are the fragments of the entry: all that can be used, and no others.

* `SignatureEntry.HasFragment`: the texts in the list of an entry and those between the bars of its
  code signature, and `Signature.mem_fragments_iff`: these are the ones that are looked at.
* `SignatureEntry.IsUsable`: an entry that describes a signature, and `SignatureEntry.fault`, what
  is wrong with any other.
* `Signature.IsOf`: the signature of an entry, fragment by fragment.
* `Signature.ofEntry_eq_error`, `Signature.exists_of_isUsable`: what becomes of an entry.
* `SignatureDatabase.ofJson_of_readEntries`: what becomes of a text.
-/

namespace IntentFirewall

/-! ## Entries -/

/-- A text stands in the list of fragments, or between the bars of the code signature. -/
def SignatureEntry.HasFragment (e : SignatureEntry) (f : String) : Prop :=
  f ∈ e.patterns ∨ ∃ code, e.codeSignature = some code ∧ f ∈ Text.splitAt '|' code

theorem Signature.fragments_eq (e : SignatureEntry) :
    fragments e = e.patterns ++ e.codeSignature.elim [] (Text.splitAt '|') := by
  rw [fragments]
  cases e.codeSignature <;> rfl

/-- What is looked at are the fragments of an entry. -/
theorem Signature.mem_fragments_iff {e : SignatureEntry} {f : String} :
    f ∈ fragments e ↔ e.HasFragment f := by
  rw [fragments_eq, List.mem_append, SignatureEntry.HasFragment]
  cases e.codeSignature <;> simp

namespace SignatureEntry

/-- An entry that describes a signature. -/
structure IsUsable (e : SignatureEntry) : Prop where
  /-- It has a name. -/
  name : Text.isBlankText e.name = false
  /-- It has a fragment. -/
  fragment : ∃ f, e.HasFragment f ∧ Text.isBlankText f = false

theorem isUsable_iff {e : SignatureEntry} : e.IsUsable ↔ Text.isBlankText e.name = false ∧
    ∃ f ∈ Signature.fragments e, Text.isBlankText f = false := by
  simp only [Signature.mem_fragments_iff]
  exact ⟨fun h => ⟨h.name, h.fragment⟩, fun h => ⟨h.1, h.2⟩⟩

instance (e : SignatureEntry) : Decidable e.IsUsable := decidable_of_iff _ isUsable_iff.symm

/-- What is wrong with an entry that describes no signature. -/
def fault (e : SignatureEntry) : SignatureError :=
  if Text.isBlankText e.name then .noName else .noPatterns e.name

end SignatureEntry

namespace Signature

variable {e : SignatureEntry} {fragments : List String} {p : String}

theorem mem_normalize_iff : p ∈ normalize fragments ↔
    p ≠ "" ∧ ∃ f ∈ fragments, Text.trim f = p := by
  -- A repeated fragment is dropped, but an equal one stays.
  have hall : (∃ q ∈ normalize fragments, q = p) ↔
      p ∈ (fragments.map Text.trim).filter (· != "") := by
    constructor
    · rintro ⟨q, hq, rfl⟩
      exact (mem_of_mem_distinctBy hq).1
    · intro hp
      exact exists_mem_distinctBy hp List.not_mem_nil
  rw [exists_eq_right] at hall
  rw [hall, List.mem_filter, List.mem_map, bne_iff_ne, and_comm]

theorem normalize_eq_nil_iff : normalize fragments = [] ↔
    ∀ f ∈ fragments, Text.isBlankText f = true := by
  simp only [List.eq_nil_iff_forall_not_mem, mem_normalize_iff, not_and, not_exists,
    ← Text.trim_eq_empty_iff]
  constructor
  · intro h f hf
    exact Decidable.byContradiction fun hne => h _ hne f hf rfl
  · rintro h p hp f hf rfl
    exact hp (h f hf)

/-- The signature of an entry. -/
structure IsOf (e : SignatureEntry) (s : Signature) : Prop where
  /-- The identifier is kept. -/
  id_eq : s.id = e.id
  /-- The name is kept as it is written. -/
  name_eq : s.name = e.name
  /-- The category is the first that is given. -/
  category_eq : s.category = (e.category.or e.categories.head?).getD ""
  /-- The website is kept unless it is empty. -/
  website_eq : s.website = e.website.filter (· != "")
  /-- The fragments are those of the entry, trimmed, unless nothing is left of them. -/
  mem_patterns_iff : ∀ p, p ∈ s.patterns ↔ p ≠ "" ∧ ∃ f, e.HasFragment f ∧ Text.trim f = p
  /-- They stand in the order in which they first come in the entry, each of them once: those in the
  list first, then those between bars. -/
  pairwise_patterns : s.patterns.Pairwise fun p q =>
    let trimmed := (e.patterns ++ e.codeSignature.elim [] (Text.splitAt '|')).map Text.trim
    trimmed.idxOf p < trimmed.idxOf q

/-- An entry that cannot be used is refused. -/
theorem ofEntry_eq_error (h : ¬e.IsUsable) : ofEntry e = .error e.fault := by
  rw [ofEntry, build, SignatureEntry.fault]
  cases hname : Text.isBlankText e.name with
  | true => rfl
  | false =>
    have hnone : normalize (Signature.fragments e) = [] := by
      rw [normalize_eq_nil_iff]
      intro f hf
      rw [← Bool.not_eq_false]
      exact fun hblank => h ⟨hname, f, mem_fragments_iff.1 hf, hblank⟩
    simp [hnone]

/-- An entry that can be used is. -/
theorem exists_of_isUsable (h : e.IsUsable) : ∃ s, ofEntry e = .ok s ∧ IsOf e s := by
  obtain ⟨f, hf, hblank⟩ := h.fragment
  have hsome : normalize (Signature.fragments e) ≠ [] := by
    rw [ne_eq, normalize_eq_nil_iff]
    intro hall
    rw [hall f (mem_fragments_iff.2 hf)] at hblank
    cases hblank
  refine ⟨⟨e.id, e.name, normalize (Signature.fragments e),
    (e.category.or e.categories.head?).getD "", e.website.filter (· != "")⟩, ?_, ?_⟩
  · rw [ofEntry, build, h.name]
    cases hnormal : normalize (Signature.fragments e) with
    | nil => exact absurd hnormal hsome
    | cons p rest => rfl
  · refine ⟨rfl, rfl, rfl, rfl, fun p => ?_, ?_⟩
    · simp only [mem_normalize_iff, mem_fragments_iff]
    · simp only [← fragments_eq]
      exact pairwise_idxOf_distinctBy (· != "") [] ((Signature.fragments e).map Text.trim)

/-- The first entry that cannot be used is told. -/
theorem ofEntries_eq_error {before after : List SignatureEntry} (hbefore : ∀ b ∈ before, b.IsUsable)
    (h : ¬e.IsUsable) : ofEntries (before ++ e :: after) = .error e.fault := by
  induction before with
  | nil => rw [List.nil_append, ofEntries, ofEntry_eq_error h]
  | cons b rest ih =>
    rw [List.forall_mem_cons] at hbefore
    obtain ⟨s, hs, -⟩ := exists_of_isUsable hbefore.1
    rw [List.cons_append, ofEntries, hs, ih hbefore.2]

/-- Entries that can all be used give a signature each. -/
theorem exists_ofEntries {entries : List SignatureEntry} (h : ∀ e ∈ entries, e.IsUsable) :
    ∃ signatures, ofEntries entries = .ok signatures ∧ List.Forall₂ IsOf entries signatures := by
  induction entries with
  | nil => exact ⟨[], rfl, .nil⟩
  | cons e rest ih =>
    rw [List.forall_mem_cons] at h
    obtain ⟨s, hs, hof⟩ := exists_of_isUsable h.1
    obtain ⟨signatures, hrest, hall⟩ := ih h.2
    exact ⟨s :: signatures, by rw [ofEntries, hs, hrest], .cons hof hall⟩

theorem IsOf.exists_pattern_iff {s : Signature} (h : IsOf e s) {q : String → Prop} :
    (∃ p ∈ s.patterns, q p) ↔
      ∃ f, e.HasFragment f ∧ Text.isBlankText f = false ∧ q (Text.trim f) := by
  have hne (f : String) : Text.trim f ≠ "" ↔ Text.isBlankText f = false := by
    rw [ne_eq, Text.trim_eq_empty_iff, Bool.not_eq_true]
  simp only [h.mem_patterns_iff]
  constructor
  · rintro ⟨-, ⟨hp, f, hf, rfl⟩, hq⟩
    exact ⟨f, hf, (hne f).1 hp, hq⟩
  · rintro ⟨f, hf, hblank, hq⟩
    exact ⟨Text.trim f, ⟨(hne f).2 hblank, f, hf, rfl⟩, hq⟩

end Signature

/-! ## Texts -/

namespace SignatureDatabase

variable {input : String} {entries : List SignatureEntry} {signatures : List Signature}
  {className : String}

theorem ofJson_eq (hread : readEntries input = .ok entries) :
    ofJson input = (Signature.ofEntries entries).map ofList := by
  rw [ofJson, hread]

/-- Class names are matched by what can be used of the entries. -/
theorem isSome_lookup_iff (h : List.Forall₂ Signature.IsOf entries signatures) :
    ((ofList signatures).lookup className).isSome = true ↔
      ∃ e ∈ entries, ∃ f, e.HasFragment f ∧
        Text.isBlankText f = false ∧ (Text.trim f).toList <:+: className.toList := by
  have hlookup : ((ofList signatures).lookup className).isSome = true ↔
      ∃ s ∈ signatures, ∃ p ∈ s.patterns, p.toList <:+: className.toList := by
    rw [Option.isSome_iff_ne_none, ne_eq, lookup_eq_none_iff]
    push Not
    rfl
  rw [hlookup]
  clear hlookup
  -- Entry by entry, the fragments of a signature are those of the entry that can be used.
  induction h with
  | nil => simp
  | cons hof _ ih => simp only [List.exists_mem_cons_iff, hof.exists_pattern_iff, ih]

/-- A text with an array of entries is loaded exactly if all of them have a name and a fragment that
are not blank, and otherwise the first that has not is told. What is loaded are the signatures of
the entries, in their order, and a class name is found exactly if a fragment of an entry occurs in
it, trimmed, and not blank. -/
theorem ofJson_of_readEntries (hread : readEntries input = .ok entries) :
    ((∃ db, ofJson input = .ok db) ↔ ∀ e ∈ entries, e.IsUsable) ∧
      (∀ error, ofJson input = .error error → ∃ before e after,
        entries = before ++ e :: after ∧ (∀ b ∈ before, b.IsUsable) ∧ ¬e.IsUsable ∧
          error = e.fault) ∧
      ∀ db, ofJson input = .ok db → List.Forall₂ Signature.IsOf entries db.signatures ∧
        ∀ className, (db.lookup className).isSome = true ↔
          ∃ e ∈ entries, ∃ f, e.HasFragment f ∧
            Text.isBlankText f = false ∧ (Text.trim f).toList <:+: className.toList := by
  rw [ofJson_eq hread]
  -- Either there is a first entry that cannot be used, or there is none.
  cases hfind : entries.find? fun e => ¬e.IsUsable with
  | none =>
    have hall : ∀ e ∈ entries, e.IsUsable := by simpa using hfind
    obtain ⟨signatures, hsignatures, hof⟩ := Signature.exists_ofEntries hall
    rw [hsignatures]
    refine ⟨iff_of_true ⟨ofList signatures, rfl⟩ hall, ?_, ?_⟩
    · rintro error ⟨⟩
    · rintro db ⟨⟩
      exact ⟨hof, fun className => isSome_lookup_iff hof⟩
  | some e =>
    obtain ⟨he, before, after, rfl, hbefore⟩ := List.find?_eq_some_iff_append.1 hfind
    have he : ¬e.IsUsable := by simpa using he
    have hbefore : ∀ b ∈ before, b.IsUsable := by simpa using hbefore
    rw [Signature.ofEntries_eq_error hbefore he]
    refine ⟨iff_of_false ?_ ?_, ?_, ?_⟩
    · rintro ⟨db, ⟨⟩⟩
    · intro hall
      exact he (hall e (List.mem_append_right _ List.mem_cons_self))
    · rintro error ⟨⟩
      exact ⟨before, e, after, rfl, hbefore, he, rfl⟩
    · rintro db ⟨⟩

/-- A fragment in the list comes again between bars, and blank ones stand there, too. -/
theorem ofJson_of_readEntries_bars :
    let input := "[\x7b\"name\": \" A\", \"patterns\": [\"\", \" com.a. \"], " ++
      "\"code_signature\": \"com.b.| |com.a.\"\x7d]"
    let e : SignatureEntry := ⟨none, " A", ["", " com.a. "], some "com.b.| |com.a.", none, [], none⟩
    readEntries input = .ok [e] ∧ ∃ db, ofJson input = .ok db ∧
      List.Forall₂ Signature.IsOf [e] db.signatures ∧
        ((db.lookup "com.a.Ad").isSome = true ∧ (db.lookup "com.b.Ad").isSome = true ∧
          (db.lookup "com.c.Ad").isSome = false) := by
  intro input e
  have hread : readEntries input = .ok [e] := by decide +kernel
  obtain ⟨hok, -, hall⟩ := ofJson_of_readEntries hread
  obtain ⟨db, hdb⟩ := hok.2 (by decide +kernel)
  obtain ⟨hof, hlookup⟩ := hall db hdb
  simp only [← Signature.mem_fragments_iff] at hlookup
  refine ⟨hread, db, hdb, hof, (hlookup _).2 ?_, (hlookup _).2 ?_, ?_⟩
  · decide +kernel
  · decide +kernel
  · rw [← Bool.not_eq_true, hlookup]
    decide +kernel

end SignatureDatabase
end IntentFirewall
