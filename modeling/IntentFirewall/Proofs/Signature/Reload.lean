import IntentFirewall.Proofs.Json.RoundTrip
import IntentFirewall.Proofs.Signature.Loading
import IntentFirewall.Tracker.Json

/-!
# Saving and loading signatures

A signature is written with other fields than those of the entry that it was loaded from: its
fragments are a list, and its identifier is a text. Loading it again changes nothing any more.

* `Signature.IsLoaded`: what holds of every signature that has been loaded.
* `Signature.toEntry`: the entry that is read where a signature has been written, and
  `Signature.decoder_toJson` says so. It describes the signature, by
  `Signature.IsLoaded.ofEntry_toEntry`.
* `SignatureDatabase.ofJson_print`: a database survives to be saved and loaded.
-/

namespace IntentFirewall

namespace Signature

/-! ## Signatures that have been loaded -/

/-- What holds of every signature that has been loaded. -/
structure IsLoaded (s : Signature) : Prop where
  /-- It has a name. -/
  name : Text.isBlankText s.name = false
  /-- It has a fragment. -/
  patterns_ne_nil : s.patterns ≠ []
  /-- No fragment is empty or has white space at its ends. -/
  trimmed : ∀ p ∈ s.patterns, p ≠ "" ∧ Text.trim p = p
  /-- No fragment comes twice. -/
  nodup : s.patterns.Nodup
  /-- The website is not empty. -/
  website : ∀ w, s.website = some w → w ≠ ""

variable {e : SignatureEntry} {s : Signature}

theorem IsOf.isLoaded (h : IsOf e s) (he : e.IsUsable) : s.IsLoaded where
  name := h.name_eq ▸ he.name
  patterns_ne_nil := by
    obtain ⟨f, hf, hblank⟩ := he.fragment
    obtain ⟨p, hp, -⟩ := (h.exists_pattern_iff (q := fun _ => True)).2 ⟨f, hf, hblank, trivial⟩
    exact List.ne_nil_of_mem hp
  trimmed p hp := by
    obtain ⟨hne, f, -, rfl⟩ := (h.mem_patterns_iff p).1 hp
    exact ⟨hne, Text.trim_trim f⟩
  nodup := by
    -- The fragments stand in the order of places in the entry, which are all different.
    refine h.pairwise_patterns.imp ?_
    rintro p q hlt rfl
    exact Nat.lt_irrefl _ hlt
  website w hw := by
    rw [h.website_eq, Option.filter_eq_some_iff] at hw
    exact bne_iff_ne.1 hw.2

theorem isLoaded_of_ofEntry (h : ofEntry e = .ok s) : s.IsLoaded := by
  by_cases he : e.IsUsable
  · obtain ⟨t, ht, hof⟩ := exists_of_isUsable he
    obtain rfl := Except.ok.inj (h.symm.trans ht)
    exact hof.isLoaded he
  · rw [ofEntry_eq_error he] at h
    cases h

theorem isLoaded_of_ofEntries {entries : List SignatureEntry} {signatures : List Signature}
    (h : ofEntries entries = .ok signatures) : ∀ s ∈ signatures, s.IsLoaded := by
  induction entries generalizing signatures with
  | nil =>
    obtain rfl := Except.ok.inj h
    exact fun s hs => nomatch hs
  | cons e rest ih =>
    rw [ofEntries] at h
    split at h
    · cases h
    next hs =>
      split at h
      · cases h
      next hrest =>
        obtain rfl := Except.ok.inj h
        exact List.forall_mem_cons.2 ⟨isLoaded_of_ofEntry hs, ih hrest⟩

theorem IsLoaded.normalize_patterns (h : s.IsLoaded) : normalize s.patterns = s.patterns := by
  have hmap : s.patterns.map Text.trim = s.patterns := by
    rw [List.map_congr_left fun p hp => (h.trimmed p hp).2, List.map_id']
  have hfilter : s.patterns.filter (· != "") = s.patterns :=
    List.filter_eq_self.2 fun p hp => bne_iff_ne.2 (h.trimmed p hp).1
  rw [normalize, hmap, hfilter]
  refine distinctBy_eq_self ?_ fun _ _ => List.not_mem_nil
  rw [List.map_id']
  exact h.nodup

/-! ## Signatures that have been written -/

/-- The entry that a written signature is read as. -/
def toEntry (s : Signature) : SignatureEntry :=
  ⟨s.id, s.name, s.patterns, none, some s.category, [], s.website⟩

/-- A signature that has been loaded is the one that its entry describes. -/
theorem IsLoaded.ofEntry_toEntry (h : s.IsLoaded) : ofEntry s.toEntry = .ok s := by
  have hfragments : fragments s.toEntry = s.patterns := List.append_nil _
  have hbuild : build s.toEntry.name (fragments s.toEntry)
      ((s.toEntry.category.or s.toEntry.categories.head?).getD "") =
        .ok ⟨none, s.name, s.patterns, s.category, none⟩ := by
    rw [hfragments, build, h.normalize_patterns]
    change (if Text.isBlankText s.name = true then _ else _) = _
    rw [h.name]
    cases hpatterns : s.patterns with
    | nil => exact absurd hpatterns h.patterns_ne_nil
    | cons p rest => rfl
  -- An empty website has been dropped before, and none is left to be dropped now.
  have hwebsite : s.website.filter (· != "") = s.website := by
    cases hw : s.website with
    | none => rfl
    | some w => rw [Option.filter_some, if_pos (bne_iff_ne.2 (h.website w hw))]
  rw [ofEntry, hbuild]
  simp only [toEntry, hwebsite]

theorem ofEntries_map_toEntry {signatures : List Signature} (h : ∀ s ∈ signatures, s.IsLoaded) :
    ofEntries (signatures.map toEntry) = .ok signatures := by
  induction signatures with
  | nil => rfl
  | cons s rest ih =>
    rw [List.forall_mem_cons] at h
    rw [List.map_cons, ofEntries, h.1.ofEntry_toEntry, ih h.2]

open Json

theorem identifier_tree (s : String) : SignatureEntry.identifier (Value.text s).tree = .ok s :=
  readLiteral_literalOf s

/-- What is written of a signature can be read as an entry. -/
theorem decoder_toJson (s : Signature) :
    SignatureEntry.decoder s.toJson.tree = .ok s.toEntry := by
  have hid := optional_tree_ofText? identifier_tree s.id
  have hname := text_tree s.name
  have hpatterns := list_tree_ofTexts s.patterns
  have hcategory : optional text (Value.text s.category).tree = .ok (some s.category) :=
    optional_tree_ofText? text_tree (some s.category)
  have hwebsite := optional_tree_ofText? text_tree s.website
  have hrecord : readRecord SignatureEntry.fields s.toJson.tree = .ok [
      ("website", (Value.ofText? s.website).tree), ("category", (Value.text s.category).tree),
      ("patterns", (Value.ofTexts s.patterns).tree), ("name", (Value.text s.name).tree),
      ("id", (Value.ofText? s.id).tree)] := by
    refine readRecord_tree_object ?_ (by simp)
    -- Every member is a field of an entry, and what is written there passes the check of the field.
    simp only [List.forall_mem_cons]
    refine ⟨⟨_, rfl, ?_⟩, ⟨_, rfl, ?_⟩, ⟨_, rfl, ?_⟩, ⟨_, rfl, ?_⟩, ⟨_, rfl, ?_⟩, ?_⟩
    · simp [Field.lacking, Field.of, hid, Except.map]
    · simp [Field.lacking, Field.of, hname, Except.map]
    · simp [Field.lacking, Field.of, hpatterns, Except.map]
    · simp [Field.lacking, Field.of, hcategory, Except.map]
    · simp [Field.lacking, Field.of, hwebsite, Except.map]
    · simp
  rw [SignatureEntry.decoder, hrecord]
  simp [Record.getD, List.lookup_cons, bind, Except.bind, hid, hname, hpatterns, hcategory,
    hwebsite, toEntry]

end Signature

namespace SignatureDatabase

open Json

variable {input : String} {db : SignatureDatabase}

/-- What is written of signatures can be read as entries. -/
theorem readEntries_print (signatures : List Signature) (l : Layout) :
    readEntries (String.ofList ((Value.array (signatures.map Signature.toJson)).print l)) =
      .ok (signatures.map Signature.toEntry) := by
  rw [readEntries, decode_print]
  exact list_tree_map fun s _ => s.decoder_toJson

theorem isLoaded_of_ofJson (h : ofJson input = .ok db) :
    db = ofList db.signatures ∧ ∀ s ∈ db.signatures, s.IsLoaded := by
  rw [ofJson] at h
  split at h
  next => cases h
  next entries _ =>
    cases hentries : Signature.ofEntries entries with
    | error e =>
      rw [hentries] at h
      cases h
    | ok signatures =>
      rw [hentries] at h
      obtain rfl := Except.ok.inj h
      exact ⟨rfl, Signature.isLoaded_of_ofEntries hentries⟩

/-- Signatures that have been loaded can be written, compactly or in lines, and loaded again: what
comes out is the same database. -/
theorem ofJson_print (h : ofJson input = .ok db) (l : Layout) :
    ofJson (String.ofList ((Value.array (db.signatures.map Signature.toJson)).print l)) =
      .ok db := by
  obtain ⟨hlist, hloaded⟩ := isLoaded_of_ofJson h
  rw [ofJson, readEntries_print]
  simp only [Signature.ofEntries_map_toEntry hloaded]
  exact congrArg Except.ok hlist.symm

/-- An identifier that was a number, fragments between bars, one of several categories and a website
that is empty. -/
theorem ofJson_print_bars :
    let input := "[\x7b\"id\": 27, \"name\": \"A \\u00e9\\n\", " ++
      "\"code_signature\": \"com.a.| |com.a.\", \"categories\": [\"ads\", \"maps\"], " ++
      "\"website\": \"\"\x7d]"
    let s : Signature := ⟨some "27", "A é\n", ["com.a."], "ads", none⟩
    let written := String.ofList ((Value.array [s.toJson]).print .compact)
    ofJson input = .ok (ofList [s]) ∧
      written = "[\x7b\"id\":\"27\",\"name\":\"A é\\n\",\"patterns\":[\"com.a.\"]," ++
        "\"category\":\"ads\",\"website\":null\x7d]" ∧
      ofJson written = .ok (ofList [s]) := by
  intro input s written
  have hread : readEntries input = .ok
      [⟨some "27", "A é\n", [], some "com.a.| |com.a.", none, ["ads", "maps"], some ""⟩] := by
    decide +kernel
  have hload : ofJson input = .ok (ofList [s]) := by
    rw [ofJson_eq hread]
    decide +kernel
  exact ⟨hload, by decide +kernel, ofJson_print hload .compact⟩

end SignatureDatabase
end IntentFirewall
