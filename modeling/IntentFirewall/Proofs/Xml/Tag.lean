import IntentFirewall.Proofs.Xml.Ending
import IntentFirewall.Xml.Builder

/-!
# Tags that are read back

A name and attributes are found again in the tag that they are written in.

* `IsName`, `IsKey`: what a tag can hold as a name or as the key of an attribute.
* `name_printTag`: the name is found again.
* `readAttributes_printTag`: the attributes are found again, with their values.
-/

namespace IntentFirewall.Xml

/-- A text that can stand in a tag as its name. -/
def IsName (name : List Char) : Prop := ∀ c ∈ name, isSpace c = false

/-- A text that can stand in a tag as the key of an attribute. Its first character is not looked
at, so that it may even be `=`. -/
def IsKey : List Char → Prop
  | [] => False
  | c :: cs => isSpace c = false ∧ ∀ d ∈ cs, d ≠ '=' ∧ isSpace d = false

/-- Attributes that can stand in one tag. -/
structure Attributes.AreReadable (attributes : Attributes) : Prop where
  /-- Every key can stand in a tag. -/
  keys : ∀ a ∈ attributes, IsKey a.1.toList
  /-- No key is used twice. -/
  nodup : (attributes.map Prod.fst).Nodup

/-- An attribute as it is written in a tag. -/
def rawAttribute (a : String × String) : RawAttribute := ⟨a.1.toList, escape a.2.toList⟩

/-! ## One attribute -/

theorem splitKey_append {key : List Char} (hkey : IsKey key) (rest : List Char) :
    splitKey (key ++ '=' :: rest) = (key, '=' :: rest) := by
  cases key with
  | nil => exact hkey.elim
  | cons c cs =>
    have hcs : ∀ d ∈ cs, (d != '=' && !isSpace d) = true := by
      intro d hd
      simp [hkey.2 d hd]
    rw [List.cons_append, splitKey, List.takeWhile_append_of_pos hcs,
      List.dropWhile_append_of_pos hcs]
    simp

/-- A key that can stand in a tag begins with what is no white space. -/
theorem skipSpace_append_of_isKey {key : List Char} (hkey : IsKey key) (rest : List Char) :
    skipSpace (key ++ rest) = key ++ rest := by
  cases key with
  | nil => exact hkey.elim
  | cons c cs => simp [skipSpace, hkey.1]

/-- A written attribute is found again, unless its key was seen before. -/
theorem scanAttribute_print (total : Nat) {seen : List (List Char × Nat)} {key : List Char}
    (hkey : IsKey key) (hseen : ∀ k ∈ seen, k.1 ≠ key) (value rest : List Char) :
    ∃ position, scanAttribute total seen (key ++ '=' :: '"' :: (escape value ++ '"' :: rest)) =
      .ok (⟨key, escape value⟩, position, rest) := by
  have hfind : seen.find? (fun k => k.1 == key) = none := by
    rw [List.find?_eq_none]
    intro k hk
    simpa using hseen k hk
  obtain ⟨htake, hdrop⟩ := span_escape (c := '"') rfl (by decide) value rest
  have hskip : skipSpace ('=' :: '"' :: (escape value ++ '"' :: rest)) =
      '=' :: '"' :: (escape value ++ '"' :: rest) := rfl
  have hquote : skipSpace ('"' :: (escape value ++ '"' :: rest)) =
      '"' :: (escape value ++ '"' :: rest) := rfl
  simp only [scanAttribute, splitKey_append hkey, hskip, hfind, hquote, true_or, if_true, htake,
    hdrop]
  exact ⟨_, rfl⟩

/-! ## All attributes of a tag -/

section

variable {total : Nat} {seen : List (List Char × Nat)} {cs key : List Char} {c : Char}

theorem scanAttributesFrom_nil (hskip : skipSpace cs = []) :
    scanAttributesFrom total seen cs = ⟨[], none⟩ := by
  rw [scanAttributesFrom]
  split
  next => rfl
  next hcons => simp [hskip] at hcons

theorem scanAttributesFrom_error {e : AttributeError} (hskip : skipSpace cs = c :: key)
    (hscan : scanAttribute total seen (c :: key) = .error e) :
    scanAttributesFrom total seen cs = ⟨[], some e⟩ := by
  rw [scanAttributesFrom]
  split
  next hnil => simp [hskip] at hnil
  next hcons => rw [← hcons, hskip, hscan]

theorem scanAttributesFrom_ok {a : RawAttribute} {position : Nat} {rest : List Char}
    (hskip : skipSpace cs = c :: key)
    (hscan : scanAttribute total seen (c :: key) = .ok (a, position, rest)) :
    scanAttributesFrom total seen cs =
      (scanAttributesFrom total ((a.key, position) :: seen) rest).cons a := by
  rw [scanAttributesFrom]
  split
  next hnil => simp [hskip] at hnil
  next hcons => rw [← hcons, hskip, hscan]

end

theorem flatMap_printAttribute_cons (key value : String) (rest : Attributes) :
    ((key, value) :: rest).flatMap printAttribute =
      ' ' :: (key.toList ++ '=' :: '"' :: (escape value.toList ++ '"' ::
        rest.flatMap printAttribute)) := by
  simp [printAttribute]

/-- Written attributes are scanned one after the other, if no key comes twice, and then what stands
behind them. -/
theorem exists_scanAttributesFrom_print {attributes : Attributes} (h : attributes.AreReadable)
    {seen : List (List Char × Nat)} (hseen : ∀ k ∈ seen, ∀ a ∈ attributes, k.1 ≠ a.1.toList)
    (total : Nat) (behind : List Char) :
    ∃ seen', scanAttributesFrom total seen (attributes.flatMap printAttribute ++ behind) =
      ⟨attributes.map rawAttribute ++ (scanAttributesFrom total seen' behind).items,
        (scanAttributesFrom total seen' behind).failure⟩ := by
  induction attributes generalizing seen with
  | nil => exact ⟨seen, rfl⟩
  | cons a rest ih =>
    obtain ⟨key, value⟩ := a
    have hkey : IsKey key.toList := h.keys _ List.mem_cons_self
    have hnodup := h.nodup
    rw [List.map_cons, List.nodup_cons] at hnodup
    have hrest : Attributes.AreReadable rest :=
      ⟨fun b hb => h.keys b (List.mem_cons_of_mem _ hb), hnodup.2⟩
    obtain ⟨position, hscan⟩ := scanAttribute_print total hkey
      (fun k hk => hseen k hk _ List.mem_cons_self) value.toList
      (rest.flatMap printAttribute ++ behind)
    -- The keys seen so far, this one included, come again in none of the other attributes.
    have hseen' : ∀ k ∈ (key.toList, position) :: seen, ∀ b ∈ rest, k.1 ≠ b.1.toList := by
      intro k hk b hb
      rcases List.mem_cons.1 hk with rfl | hk
      · intro heq
        exact hnodup.1 (List.mem_map.2 ⟨b, hb, (String.toList_inj.1 heq).symm⟩)
      · exact hseen k hk b (List.mem_cons_of_mem _ hb)
    have hskip : skipSpace (((key, value) :: rest).flatMap printAttribute ++ behind) =
        key.toList ++ '=' :: '"' :: (escape value.toList ++ '"' ::
          (rest.flatMap printAttribute ++ behind)) := by
      rw [flatMap_printAttribute_cons, List.cons_append, List.append_assoc, List.cons_append,
        List.cons_append, List.append_assoc]
      exact skipSpace_append_of_isKey hkey _
    obtain ⟨c, cs, hcons⟩ := List.exists_cons_of_ne_nil
      (l := key.toList ++ '=' :: '"' :: (escape value.toList ++ '"' ::
        (rest.flatMap printAttribute ++ behind))) (by simp)
    obtain ⟨seen', hbehind⟩ := ih hrest hseen'
    refine ⟨seen', ?_⟩
    rw [scanAttributesFrom_ok (hskip.trans hcons) (hcons ▸ hscan), hbehind]
    rfl

/-- Written attributes are scanned without a failure, if no key comes twice. -/
theorem scanAttributesFrom_print {attributes : Attributes} (h : attributes.AreReadable)
    (total : Nat) :
    scanAttributesFrom total [] (attributes.flatMap printAttribute) =
      ⟨attributes.map rawAttribute, none⟩ := by
  obtain ⟨seen', hscan⟩ := exists_scanAttributesFrom_print h
    (fun k hk => absurd hk List.not_mem_nil) total []
  rw [List.append_nil] at hscan
  rw [hscan, scanAttributesFrom_nil rfl, List.append_nil]

variable {name : String} {attributes : Attributes}

/-- What follows the name in a tag begins with white space, if there is anything. -/
theorem span_printTag (hname : IsName name.toList) (attributes : Attributes) :
    (printTag name attributes).takeWhile (!isSpace ·) = name.toList ∧
      (printTag name attributes).dropWhile (!isSpace ·) = attributes.flatMap printAttribute := by
  have hspace : ∀ c ∈ name.toList, (!isSpace c) = true := by
    intro c hc
    rw [hname c hc]
    rfl
  rw [printTag, List.takeWhile_append_of_pos hspace, List.dropWhile_append_of_pos hspace]
  cases attributes with
  | nil => simp
  | cons a rest => simp [printAttribute, isSpace]

/-- The name of a written tag is found again. -/
theorem name_printTag (hname : IsName name.toList) (attributes : Attributes) :
    (Tag.mk (printTag name attributes)).name = name.toList :=
  (span_printTag hname attributes).1

/-- The attributes of a written tag are scanned without a failure. -/
theorem attributes_printTag (hname : IsName name.toList) (h : attributes.AreReadable) :
    (Tag.mk (printTag name attributes)).attributes = ⟨attributes.map rawAttribute, none⟩ := by
  rw [Tag.attributes, scanAttributes, (span_printTag hname attributes).2]
  exact scanAttributesFrom_print h _

/-- The value of a written attribute is read back. -/
theorem text_rawAttribute (a : String × String) : (rawAttribute a).text = .ok a.2 := by
  rw [rawAttribute, RawAttribute.text, unescape_escape]
  simp

/-- The attributes of a written tag are read back. -/
theorem readAttributes_printTag (hname : IsName name.toList) (h : attributes.AreReadable) :
    Builder.readAttributes (Tag.mk (printTag name attributes)).attributes = .ok attributes := by
  have hvalues : (attributes.map rawAttribute).mapM
      (fun a => a.text.map fun value => (String.ofList a.key, value)) = .ok attributes := by
    clear h
    induction attributes with
    | nil => rfl
    | cons a rest ih =>
      rw [List.map_cons, List.mapM_cons, text_rawAttribute, ih]
      simp [rawAttribute, Except.map, bind, Except.bind, pure, Except.pure]
  rw [attributes_printTag hname h, Builder.readAttributes, hvalues]

end IntentFirewall.Xml
