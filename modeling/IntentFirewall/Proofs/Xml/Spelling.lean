import IntentFirewall.Proofs.Xml.Readable

/-!
# Ways to write a tag

A tag can be written in more than one way: with either quotation mark around a value, with
references in place of characters, and with white space between its parts. However it is written,
its name and its attributes are found in it.

## Main definitions

* `Spells`: the ways to write a text.
* `Denotes`: references to characters.
* `SpellsAttributes`: the ways to write attributes behind the name in a tag.
* `Tag.IsOf`: a tag in which a name and attributes are found.

## Main results

* `Spells.unescape_eq`: a text is read back however it is written.
* `SpellsTag.isOf`, `SpellsTag.pass`: the same for a tag, and that it ends where it
  should.
-/

namespace IntentFirewall.Xml

/-! ## Texts -/

/-- The characters that have a name. -/
def entityNames : List (String × Char) :=
  [("lt", '<'), ("gt", '>'), ("amp", '&'), ("apos", '\''), ("quot", '"')]

/-- A way to write a text: a character stands for itself, if it may, or a reference to it by its
name or by its number stands in its place. -/
inductive Spells (mayStand : Char → Prop) : List Char → List Char → Prop
  /-- Nothing is written for nothing. -/
  | nil : Spells mayStand [] []
  /-- A character for itself. -/
  | char {c : Char} {raw cs : List Char} (hc : mayStand c) (hrest : Spells mayStand raw cs) :
    Spells mayStand (c :: raw) (c :: cs)
  /-- An entity. -/
  | entity {name : String} {c : Char} {raw cs : List Char} (hname : (name, c) ∈ entityNames)
    (hrest : Spells mayStand raw cs) :
    Spells mayStand ('&' :: (name.toList ++ ';' :: raw)) (c :: cs)
  /-- A character reference. -/
  | reference {number : List Char} {c : Char} {raw cs : List Char}
    (hnumber : readReference number = .ok c) (hrest : Spells mayStand raw cs) :
    Spells mayStand ('&' :: ('#' :: number ++ ';' :: raw)) (c :: cs)

theorem all_isSome_digitValue?_of_readDigits {radix n code : Nat} {cs : List Char}
    (h : readDigits radix n cs = .ok code) : ∀ c ∈ cs, (Text.digitValue? c).isSome = true := by
  induction cs generalizing n with
  | nil => simp
  | cons c cs ih =>
    rw [readDigits] at h
    split at h
    · simp at h
    next d hd =>
      split at h
      · simp at h
      · split at h
        · simp at h
        · refine List.forall_mem_cons.2 ⟨?_, ih h⟩
          rw [hd]
          rfl

theorem all_isSome_digitValue?_of_readNumber {radix code : Nat} {cs : List Char}
    (h : readNumber radix cs = .ok code) : ∀ c ∈ cs, (Text.digitValue? c).isSome = true := by
  rw [readNumber.eq_def] at h
  split at h
  · simp at h
  · simp at h
  · simp at h
  · exact all_isSome_digitValue?_of_readDigits h

/-- A character reference consists of digits, perhaps behind an `x`. -/
theorem eq_or_isSome_digitValue?_of_readReference {number : List Char} {c : Char}
    (h : readReference number = .ok c) :
    ∀ d ∈ number, d = 'x' ∨ (Text.digitValue? d).isSome = true := by
  rw [readReference.eq_def] at h
  split at h
  next hex =>
    cases hcode : readNumber 16 hex with
    | error e => simp [hcode, bind, Except.bind] at h
    | ok code =>
      refine List.forall_mem_cons.2 ⟨.inl rfl, fun d hd => ?_⟩
      exact .inr (all_isSome_digitValue?_of_readNumber hcode d hd)
  next =>
    cases hcode : readNumber 10 number with
    | error e => simp [hcode, bind, Except.bind] at h
    | ok code => exact fun d hd => .inr (all_isSome_digitValue?_of_readNumber hcode d hd)

/-- Neither markup nor a semicolon. -/
def IsPlainName (name : List Char) : Prop := ∀ d ∈ name, isMarkup d = false ∧ d ≠ ';'

instance (name : List Char) : Decidable (IsPlainName name) :=
  List.decidableBAll (fun d => isMarkup d = false ∧ d ≠ ';') name

/-- What stands between the ampersand and the semicolon of a reference to a character. -/
structure Denotes (name : List Char) (c : Char) : Prop where
  /-- It does not end before the semicolon. -/
  plain : IsPlainName name
  /-- It is resolved to the character. -/
  resolves : ∀ start, resolve start name = .ok c

theorem denotes_of_mem_entityNames {name : String} {c : Char} (h : (name, c) ∈ entityNames) :
    Denotes name.toList c := by
  simp only [entityNames, List.mem_cons, Prod.mk.injEq, List.not_mem_nil, or_false] at h
  rcases h with ⟨rfl, rfl⟩ | ⟨rfl, rfl⟩ | ⟨rfl, rfl⟩ | ⟨rfl, rfl⟩ | ⟨rfl, rfl⟩ <;>
    exact ⟨by decide, fun start => rfl⟩

theorem denotes_of_readReference {number : List Char} {c : Char}
    (h : readReference number = .ok c) : Denotes ('#' :: number) c where
  plain := by
    refine List.forall_mem_cons.2 ⟨by decide, fun d hd => ?_⟩
    have hdigit := eq_or_isSome_digitValue?_of_readReference h d hd
    refine ⟨?_, ?_⟩
    · rw [Bool.eq_false_iff]
      intro hmarkup
      rcases escapeChar_of_isMarkup hmarkup with
        ⟨rfl, -⟩ | ⟨rfl, -⟩ | ⟨rfl, -⟩ | ⟨rfl, -⟩ | ⟨rfl, -⟩ <;> revert hdigit <;> decide
    · rintro rfl
      revert hdigit
      decide
  resolves start := by
    rw [resolve, h]
    rfl

namespace Denotes

variable {name : List Char} {c : Char}

/-- Reading goes on behind a reference with the character that it denotes. -/
theorem unescapeFrom_eq (h : Denotes name c) (position : Nat) (acc rest : List Char) :
    ∃ position', unescapeFrom none position acc ('&' :: (name ++ ';' :: rest)) =
      unescapeFrom none position' (c :: acc) rest := by
  -- What has been read of the reference and what is still to come make up its name.
  have hname {part : List Char} {start position : Nat} {read : List Char}
      (hread : read.reverse ++ part = name) : ∃ position',
        unescapeFrom (some ⟨start, read⟩) position acc (part ++ ';' :: rest) =
          unescapeFrom none position' (c :: acc) rest := by
    induction part generalizing position read with
    | nil =>
      rw [List.append_nil] at hread
      rw [List.nil_append, unescapeFrom, if_pos rfl]
      simp only [hread, h.resolves start]
      exact ⟨_, rfl⟩
    | cons d part ih =>
      obtain ⟨hmarkup, hsemicolon⟩ := h.plain d (by simp [← hread])
      have hampersand : d ≠ '&' := by
        rintro rfl
        cases hmarkup
      rw [List.cons_append, unescapeFrom, if_neg hsemicolon, if_neg hampersand]
      exact ih (by simp [← hread])
  rw [unescapeFrom, if_pos rfl]
  exact hname rfl

/-- Of markup characters, only the ampersand stands in a reference. -/
theorem not_mem (h : Denotes name c) {d : Char} (hmarkup : isMarkup d = true)
    (hampersand : d ≠ '&') {rest : List Char} (hrest : d ∉ rest) :
    d ∉ '&' :: (name ++ ';' :: rest) := by
  have hsemicolon : d ≠ ';' := by
    rintro rfl
    cases hmarkup
  simp only [List.mem_cons, List.mem_append, not_or]
  refine ⟨hampersand, fun hmem => ?_, hsemicolon, hrest⟩
  rw [(h.plain d hmem).1] at hmarkup
  cases hmarkup

end Denotes

namespace Spells

variable {mayStand : Char → Prop} {raw cs : List Char}

/-- A text is read back however it is written. -/
theorem unescapeFrom_eq (h : Spells mayStand raw cs) (hampersand : ¬mayStand '&')
    (position : Nat) (acc : List Char) :
    unescapeFrom none position acc raw = .ok (acc.reverse ++ cs) := by
  induction h generalizing position acc with
  | nil => simp [unescapeFrom]
  | @char c raw cs hc hrest ih =>
    have hne : c ≠ '&' := fun heq => hampersand (heq ▸ hc)
    rw [unescapeFrom, if_neg hne, ih]
    simp
  | @entity name c raw cs hname hrest ih =>
    obtain ⟨position', hread⟩ := (denotes_of_mem_entityNames hname).unescapeFrom_eq position acc raw
    rw [hread, ih]
    simp
  | @reference number c raw cs hnumber hrest ih =>
    obtain ⟨position', hread⟩ := (denotes_of_readReference hnumber).unescapeFrom_eq position acc raw
    rw [hread, ih]
    simp

theorem unescape_eq (h : Spells mayStand raw cs) (hampersand : ¬mayStand '&') :
    unescape raw = .ok cs := by
  rw [unescape, h.unescapeFrom_eq hampersand, List.reverse_nil, List.nil_append]

/-- A markup character that may not stand for itself is not written, but for the ampersand. -/
theorem not_mem (h : Spells mayStand raw cs) {d : Char} (hmarkup : isMarkup d = true)
    (hampersand : d ≠ '&') (hd : ¬mayStand d) : d ∉ raw := by
  induction h with
  | nil => exact List.not_mem_nil
  | char hc hrest ih =>
    rw [List.mem_cons, not_or]
    exact ⟨fun heq => hd (heq ▸ hc), ih⟩
  | entity hname hrest ih =>
    exact (denotes_of_mem_entityNames hname).not_mem hmarkup hampersand ih
  | reference hnumber hrest ih =>
    exact (denotes_of_readReference hnumber).not_mem hmarkup hampersand ih

/-- A character that is escaped is written as an entity. -/
theorem exists_entity_of_isMarkup {c : Char} (h : isMarkup c = true) :
    ∃ name, (name, c) ∈ entityNames ∧ escapeChar c = '&' :: (name.toList ++ [';']) := by
  rcases escapeChar_of_isMarkup h with ⟨rfl, he⟩ | ⟨rfl, he⟩ | ⟨rfl, he⟩ | ⟨rfl, he⟩ | ⟨rfl, he⟩
  · exact ⟨"lt", by decide, he⟩
  · exact ⟨"gt", by decide, he⟩
  · exact ⟨"amp", by decide, he⟩
  · exact ⟨"apos", by decide, he⟩
  · exact ⟨"quot", by decide, he⟩

/-- To escape a text is one way to write it. -/
theorem escape (h : ∀ c, isMarkup c = false → mayStand c) (cs : List Char) :
    Spells mayStand (escape cs) cs := by
  induction cs with
  | nil => exact .nil
  | cons c cs ih =>
    rw [escape_cons]
    cases hc : isMarkup c with
    | true =>
      obtain ⟨name, hname, hescape⟩ := exists_entity_of_isMarkup hc
      rw [hescape, List.cons_append, List.append_assoc]
      exact .entity hname ih
    | false =>
      rw [escapeChar_of_not_isMarkup hc]
      exact .char (h c hc) ih

end Spells

/-! ## Attributes -/

/-- The characters that may stand for themselves in a text. -/
def MayStandInText (c : Char) : Prop := c ≠ '<' ∧ c ≠ '&'

/-- The characters that may stand for themselves between quotation marks. -/
def MayStandIn (quote c : Char) : Prop := MayStandInText c ∧ c ≠ quote

instance (c : Char) : Decidable (MayStandInText c) := inferInstanceAs (Decidable (_ ∧ _))

instance (quote c : Char) : Decidable (MayStandIn quote c) := inferInstanceAs (Decidable (_ ∧ _))

/-- White space of markup. -/
def AllSpace (cs : List Char) : Prop := ∀ c ∈ cs, isSpace c = true

instance (cs : List Char) : Decidable (AllSpace cs) :=
  List.decidableBAll (fun c => isSpace c = true) cs

/-- A way to write attributes behind the name in a tag: white space before each of them, perhaps
some around the `=`, and the value in quotation marks of either kind. -/
inductive SpellsAttributes : List Char → Attributes → Prop
  /-- Nothing is written for nothing. -/
  | nil : SpellsAttributes [] []
  /-- One attribute more. -/
  | cons {gap before after raw rest : List Char} {key value : String} {quote : Char}
    {attributes : Attributes} (hgap : AllSpace gap) (hne : gap ≠ []) (hbefore : AllSpace before)
    (hafter : AllSpace after) (hquote : quote = '"' ∨ quote = '\'')
    (hvalue : Spells (MayStandIn quote) raw value.toList)
    (hrest : SpellsAttributes rest attributes) :
    SpellsAttributes (gap ++ (key.toList ++ (before ++ '=' ::
      (after ++ quote :: (raw ++ quote :: rest))))) ((key, value) :: attributes)

/-- The attributes of a tag are printed in one of the ways to write them. -/
theorem SpellsAttributes.flatMap_printAttribute (attributes : Attributes) :
    SpellsAttributes (attributes.flatMap printAttribute) attributes := by
  induction attributes with
  | nil => exact .nil
  | cons a attributes ih =>
    have hvalue : Spells (MayStandIn '"') (escape a.2.toList) a.2.toList := by
      refine .escape (fun c hc => ⟨⟨?_, ?_⟩, ?_⟩) _ <;> rintro rfl <;> cases hc
    have htext : (a :: attributes).flatMap printAttribute = [' '] ++ (a.1.toList ++ ([] ++ '=' ::
        ([] ++ '"' :: (escape a.2.toList ++ '"' :: attributes.flatMap printAttribute)))) := by
      simp [printAttribute]
    rw [htext]
    exact .cons (by decide) (by decide) (by decide) (by decide) (.inl rfl) hvalue ih

theorem skipSpace_append {spaces : List Char} (h : AllSpace spaces) (rest : List Char) :
    skipSpace (spaces ++ rest) = skipSpace rest :=
  List.dropWhile_append_of_pos h

theorem skipSpace_eq_nil {spaces : List Char} (h : AllSpace spaces) : skipSpace spaces = [] :=
  List.dropWhile_eq_nil_iff.2 h

/-- White space means nothing else in a tag. -/
theorem AllSpace.pass {spaces : List Char} (h : AllSpace spaces) :
    tagEnding.pass none spaces = some none := by
  refine pass_of_plain .none fun c hc => ?_
  refine ⟨?_, ?_, ?_⟩ <;> rintro rfl <;> exact absurd (h _ hc) (by decide)

/-- Inside of a quote, everything is passed but the quotation mark that ends it. -/
theorem pass_of_not_mem {quote : Char} {raw : List Char} (h : quote ∉ raw) :
    tagEnding.pass (some quote) raw = some (some quote) := by
  induction raw with
  | nil => rfl
  | cons c cs ih =>
    rw [List.mem_cons, not_or] at h
    have hadvance : tagEnding.advance (some quote) c = some quote := if_neg (Ne.symm h.1)
    rw [Ending.pass, if_neg (by simp [tagEnding]), hadvance]
    exact ih h.2

/-- A value in quotation marks leaves a tag as it was. -/
theorem pass_quoted {quote : Char} (hquote : quote = '"' ∨ quote = '\'') {raw : List Char}
    (h : quote ∉ raw) (rest : List Char) :
    tagEnding.pass none (quote :: (raw ++ quote :: rest)) = tagEnding.pass none rest := by
  have hend : quote ≠ '>' := by
    rintro rfl
    revert hquote
    decide
  have hopen : tagEnding.advance none quote = some quote := if_pos hquote
  have hclose : tagEnding.advance (some quote) quote = none := if_pos rfl
  rw [Ending.pass, if_neg (fun hc => hend hc.1), hopen, Ending.pass_append, pass_of_not_mem h,
    Option.bind_some, Ending.pass, if_neg (fun hc => hend hc.1), hclose]

namespace SpellsAttributes

variable {text : List Char} {attributes : Attributes}

/-- However attributes are written, the tag goes on behind them. -/
theorem pass (h : SpellsAttributes text attributes)
    (hkeys : ∀ a ∈ attributes, IsXmlName a.1) : tagEnding.pass none text = some none := by
  induction h with
  | nil => rfl
  | @cons gap before after raw rest key value quote attributes hgap hne hbefore hafter hquote
      hvalue hrest ih =>
    rw [List.forall_mem_cons] at hkeys
    have hmarkup : isMarkup quote = true := by rcases hquote with rfl | rfl <;> rfl
    have hampersand : quote ≠ '&' := by rcases hquote with rfl | rfl <;> decide
    have hraw : quote ∉ raw := hvalue.not_mem hmarkup hampersand fun h => h.2 rfl
    have hequals : tagEnding.pass none ['='] = some none := rfl
    rw [Ending.pass_append, hgap.pass, Option.bind_some, Ending.pass_append, hkeys.1.pass,
      Option.bind_some, Ending.pass_append, hbefore.pass, Option.bind_some, ← List.singleton_append,
      Ending.pass_append, hequals, Option.bind_some, Ending.pass_append, hafter.pass,
      Option.bind_some, pass_quoted hquote hraw]
    exact ih hkeys.2

end SpellsAttributes

/-! ## Reading attributes -/

/-- A key ends where white space or a `=` stands. -/
theorem splitKey_append_of_head {key rest : List Char} (hkey : IsKey key)
    (hrest : ∀ c, rest.head? = some c → c = '=' ∨ isSpace c = true) :
    splitKey (key ++ rest) = (key, rest) := by
  cases key with
  | nil => exact hkey.elim
  | cons c cs =>
    have hcs : ∀ d ∈ cs, (d != '=' && !isSpace d) = true := by
      intro d hd
      simp [hkey.2 d hd]
    rw [List.cons_append, splitKey, List.takeWhile_append_of_pos hcs,
      List.dropWhile_append_of_pos hcs]
    cases rest with
    | nil => simp
    | cons d ds =>
      have hd : (d != '=' && !isSpace d) = false := by
        rcases hrest d rfl with rfl | hd
        · rfl
        · simp [hd]
      simp [hd]

/-- An attribute is found however it is written, unless its key was seen before. -/
theorem scanAttribute_spelled (total : Nat) {seen : List (List Char × Nat)}
    {key before after raw : List Char} {quote : Char} (hkey : IsKey key)
    (hseen : ∀ k ∈ seen, k.1 ≠ key) (hbefore : AllSpace before) (hafter : AllSpace after)
    (hquote : quote = '"' ∨ quote = '\'') (hraw : quote ∉ raw) (rest : List Char) :
    ∃ position, scanAttribute total seen
      (key ++ (before ++ '=' :: (after ++ quote :: (raw ++ quote :: rest)))) =
        .ok (⟨key, raw⟩, position, rest) := by
  have hsplit : splitKey (key ++ (before ++ '=' :: (after ++ quote :: (raw ++ quote :: rest)))) =
      (key, before ++ '=' :: (after ++ quote :: (raw ++ quote :: rest))) := by
    refine splitKey_append_of_head hkey fun c hc => ?_
    cases before with
    | nil => exact .inl (Option.some.inj hc).symm
    | cons d ds =>
      obtain rfl : d = c := Option.some.inj hc
      exact .inr (hbefore d List.mem_cons_self)
  have hequals : skipSpace (before ++ '=' :: (after ++ quote :: (raw ++ quote :: rest))) =
      '=' :: (after ++ quote :: (raw ++ quote :: rest)) := by
    rw [skipSpace_append hbefore]
    rfl
  have hopen : skipSpace (after ++ quote :: (raw ++ quote :: rest)) =
      quote :: (raw ++ quote :: rest) := by
    rw [skipSpace_append hafter]
    rcases hquote with rfl | rfl <;> rfl
  have hfind : seen.find? (fun k => k.1 == key) = none := by
    rw [List.find?_eq_none]
    intro k hk
    simpa using hseen k hk
  have hvalue : ∀ d ∈ raw, (d != quote) = true := by
    intro d hd
    rw [bne_iff_ne]
    rintro rfl
    exact hraw hd
  have htake : (raw ++ quote :: rest).takeWhile (· != quote) = raw := by
    rw [List.takeWhile_append_of_pos hvalue]
    simp
  have hdrop : (raw ++ quote :: rest).dropWhile (· != quote) = quote :: rest := by
    rw [List.dropWhile_append_of_pos hvalue]
    simp
  simp only [scanAttribute, hsplit, hequals, hfind, hopen, if_pos hquote, htake, hdrop]
  exact ⟨_, rfl⟩

/-- An attribute as it is found in a tag. -/
structure RawAttribute.IsOf (a : RawAttribute) (p : String × String) : Prop where
  /-- The key. -/
  key : a.key = p.1.toList
  /-- The value. -/
  text : a.text = .ok p.2

namespace SpellsAttributes

variable {text spaces : List Char} {attributes : Attributes}

/-- Attributes are found however they are written, if no key comes twice. -/
theorem exists_scanAttributesFrom (h : SpellsAttributes text attributes)
    (hattributes : attributes.AreWellNamed) (hspaces : AllSpace spaces) (total : Nat)
    {seen : List (List Char × Nat)} (hseen : ∀ k ∈ seen, ∀ a ∈ attributes, k.1 ≠ a.1.toList) :
    ∃ items, scanAttributesFrom total seen (text ++ spaces) = ⟨items, none⟩ ∧
      List.Forall₂ RawAttribute.IsOf items attributes := by
  induction h generalizing seen with
  | nil => exact ⟨[], scanAttributesFrom_nil (skipSpace_eq_nil hspaces), .nil⟩
  | @cons gap before after raw rest key value quote attributes hgap hne hbefore hafter hquote
      hvalue hrest ih =>
    have hkey : IsKey key.toList := (hattributes.keys _ List.mem_cons_self).isKey
    have hnodup := hattributes.nodup
    rw [List.map_cons, List.nodup_cons] at hnodup
    have hothers : Attributes.AreWellNamed attributes :=
      ⟨fun a ha => hattributes.keys a (List.mem_cons_of_mem _ ha), hnodup.2⟩
    have hmarkup : isMarkup quote = true := by rcases hquote with rfl | rfl <;> rfl
    have hampersand : quote ≠ '&' := by rcases hquote with rfl | rfl <;> decide
    have hraw : quote ∉ raw := hvalue.not_mem hmarkup hampersand fun h => h.2 rfl
    obtain ⟨position, hscan⟩ := scanAttribute_spelled total hkey
      (fun k hk => hseen k hk _ List.mem_cons_self) hbefore hafter hquote hraw (rest ++ spaces)
    -- The keys seen so far, this one included, come again in none of the other attributes.
    have hseen' : ∀ k ∈ (key.toList, position) :: seen, ∀ a ∈ attributes, k.1 ≠ a.1.toList := by
      intro k hk a ha
      rcases List.mem_cons.1 hk with rfl | hk
      · intro heq
        exact hnodup.1 (List.mem_map.2 ⟨a, ha, (String.toList_inj.1 heq).symm⟩)
      · exact hseen k hk a (List.mem_cons_of_mem _ ha)
    obtain ⟨items, hitems, hall⟩ := ih hothers hseen'
    have hskip : skipSpace (gap ++ (key.toList ++ (before ++ '=' ::
        (after ++ quote :: (raw ++ quote :: rest)))) ++ spaces) = key.toList ++ (before ++ '=' ::
          (after ++ quote :: (raw ++ quote :: (rest ++ spaces)))) := by
      rw [List.append_assoc, skipSpace_append hgap, List.append_assoc,
        skipSpace_append_of_isKey hkey]
      simp
    obtain ⟨c, cs, hcons⟩ := List.exists_cons_of_ne_nil (l := key.toList ++ (before ++ '=' ::
      (after ++ quote :: (raw ++ quote :: (rest ++ spaces))))) (by simp)
    refine ⟨⟨key.toList, raw⟩ :: items, ?_, .cons ⟨rfl, ?_⟩ hall⟩
    · rw [scanAttributesFrom_ok (hskip.trans hcons) (hcons ▸ hscan), hitems]
      rfl
    · rw [RawAttribute.text, hvalue.unescape_eq fun h => h.1.2 rfl]
      simp

end SpellsAttributes

/-! ## Tags -/

/-- A tag in which a name and attributes are found. -/
structure Tag.IsOf (tag : Tag) (name : String) (attributes : Attributes) : Prop where
  /-- The name. -/
  name : tag.name = name.toList
  /-- No attribute is ill-formed. -/
  failure : tag.attributes.failure = none
  /-- The attributes. -/
  items : List.Forall₂ RawAttribute.IsOf tag.attributes.items attributes

/-- A way to write what stands in a tag: the name, the attributes, and perhaps white space. -/
def SpellsTag (content : List Char) (name : String) (attributes : Attributes) : Prop :=
  ∃ text spaces, content = name.toList ++ (text ++ spaces) ∧ SpellsAttributes text attributes ∧
    AllSpace spaces

namespace SpellsTag

/-- A tag is printed in one of the ways to write it. -/
theorem printTag (name : String) (attributes : Attributes) :
    SpellsTag (printTag name attributes) name attributes := by
  refine ⟨attributes.flatMap printAttribute, [], ?_, .flatMap_printAttribute attributes, by decide⟩
  rw [List.append_nil]
  rfl

variable {content : List Char} {name : String} {attributes : Attributes}

/-- What follows the name in a tag begins with white space, if there is anything. -/
theorem isSpace_of_head? {text spaces : List Char} (htext : SpellsAttributes text attributes)
    (hspaces : AllSpace spaces) {c : Char} (hc : (text ++ spaces).head? = some c) :
    isSpace c = true := by
  cases htext with
  | nil => exact hspaces c (List.mem_of_mem_head? hc)
  | @cons gap before after raw rest key value quote attributes hgap hne =>
    obtain ⟨d, ds, rfl⟩ := List.exists_cons_of_ne_nil hne
    obtain rfl : d = c := Option.some.inj hc
    exact hgap d List.mem_cons_self

/-- The name and the attributes are found in a tag however it is written. -/
theorem isOf (h : SpellsTag content name attributes) (hname : IsXmlName name)
    (hattributes : attributes.AreWellNamed) : (Tag.mk content).IsOf name attributes := by
  obtain ⟨text, spaces, rfl, htext, hspaces⟩ := h
  have hplain : ∀ c ∈ name.toList, (!isSpace c) = true := by
    intro c hc
    rw [hname.isSpace_eq_false hc]
    rfl
  have hbehind : (text ++ spaces).takeWhile (!isSpace ·) = [] ∧
      (text ++ spaces).dropWhile (!isSpace ·) = text ++ spaces := by
    cases hhead : text ++ spaces with
    | nil => exact ⟨rfl, rfl⟩
    | cons c cs =>
      have hc : isSpace c = true := isSpace_of_head? htext hspaces (by rw [hhead]; rfl)
      simp [hc]
  obtain ⟨items, hitems, hall⟩ : ∃ items,
      scanAttributesFrom (Utf8.size (name.toList ++ (text ++ spaces))) [] (text ++ spaces) =
        ⟨items, none⟩ ∧ List.Forall₂ RawAttribute.IsOf items attributes :=
    htext.exists_scanAttributesFrom hattributes hspaces _ fun k hk => absurd hk List.not_mem_nil
  have hscanned : (Tag.mk (name.toList ++ (text ++ spaces))).attributes = ⟨items, none⟩ := by
    rw [Tag.attributes, scanAttributes, List.dropWhile_append_of_pos hplain, hbehind.2, hitems]
  refine ⟨?_, ?_, ?_⟩
  · rw [Tag.name, List.takeWhile_append_of_pos hplain, hbehind.1, List.append_nil]
  · rw [hscanned]
  · rw [hscanned]
    exact hall

/-- However it is written, a tag ends where it should. -/
theorem pass (h : SpellsTag content name attributes) (hname : IsXmlName name)
    (hattributes : attributes.AreWellNamed) : tagEnding.pass none content = some none := by
  obtain ⟨text, spaces, rfl, htext, hspaces⟩ := h
  rw [Ending.pass_append, hname.pass, Option.bind_some, Ending.pass_append,
    htext.pass hattributes.keys, Option.bind_some, hspaces.pass]

/-- A tag begins like its name, and is not taken for other markup. -/
theorem startsTag (h : SpellsTag content name attributes) (hname : IsXmlName name)
    (rest : List Char) :
    ∀ c, (content ++ rest).head? = some c → c ≠ '!' ∧ c ≠ '?' ∧ c ≠ '/' := by
  obtain ⟨text, spaces, rfl, -, -⟩ := h
  intro c hc
  obtain ⟨d, ds, hd⟩ := List.exists_cons_of_ne_nil (mt String.toList_eq_nil_iff.1 hname.nonempty)
  obtain rfl : d = c := by simpa [hd] using hc
  have hmem : d ∈ name.toList := hd ▸ List.mem_cons_self
  refine ⟨?_, ?_, ?_⟩ <;> rintro rfl <;> exact hname.not_mem (by decide) hmem

/-- What is written for attributes ends with a quotation mark. -/
theorem eq_nil_or_exists_quote {text : List Char} (h : SpellsAttributes text attributes) :
    text = [] ∨ ∃ front quote, text = front ++ [quote] ∧ (quote = '"' ∨ quote = '\'') := by
  induction h with
  | nil => exact .inl rfl
  | @cons gap before after raw rest key value quote attributes _ _ _ _ hquote _ _ ih =>
    right
    rcases ih with rfl | ⟨front, q, rfl, hq⟩
    · exact ⟨gap ++ (key.toList ++ (before ++ '=' :: (after ++ quote :: raw))), quote, by simp,
        hquote⟩
    · exact ⟨gap ++ (key.toList ++ (before ++ '=' :: (after ++ quote :: (raw ++ quote :: front)))),
        q, by simp, hq⟩

/-- A tag does not end like one that closes itself. -/
theorem getLast?_ne_slash (h : SpellsTag content name attributes) (hname : IsXmlName name) :
    content.getLast? ≠ some '/' := by
  obtain ⟨text, spaces, rfl, htext, hspaces⟩ := h
  -- The last character is a space, a quotation mark, or the last one of the name.
  rcases List.eq_nil_or_concat' spaces with rfl | ⟨front, c, rfl⟩
  · rcases eq_nil_or_exists_quote htext with rfl | ⟨front, quote, rfl, hquote⟩
    · simpa using hname.getLast?_ne_slash
    · rw [List.append_nil, ← List.append_assoc, List.getLast?_concat]
      rcases hquote with rfl | rfl <;> decide
  · have hc : isSpace c = true := hspaces c (by simp)
    rw [← List.append_assoc, ← List.append_assoc, List.getLast?_concat]
    intro hslash
    obtain rfl := Option.some.inj hslash
    cases hc

end SpellsTag

end IntentFirewall.Xml
