import IntentFirewall.Proofs.Xml.Brackets
import IntentFirewall.Proofs.Xml.Parsed

/-!
# Tags that are told apart

A tag that does not end where it should, once it is written, is not read back. So a document that
has the same elements after it was written and read is delimited.

* `eq_printTag_of_bracket`: neither a part of a written tag nor a text that goes on behind it is
  taken for the tag.
* `Reader.quotes_of_markup`: what is read as the start of a written element is its tag.
* `Content.isDelimited_of_brackets`: a content whose brackets are found in its text is delimited.
* `isDelimited_of_readRoot_print`: the same for a document.
-/

namespace IntentFirewall.Xml

/-! ## Parts of attributes -/

/-- Nothing is lost when a key is split off. -/
theorem splitKey_fst_append_snd (cs : List Char) : (splitKey cs).1 ++ (splitKey cs).2 = cs := by
  cases cs with
  | nil => rfl
  | cons c cs =>
    rw [splitKey, List.cons_append, List.takeWhile_append_dropWhile]

/-- An attribute is a key, a `=`, and a quoted value. -/
theorem exists_of_scanAttribute {total : Nat} {seen : List (List Char × Nat)} {cs rest : List Char}
    {a : RawAttribute} {position : Nat}
    (h : scanAttribute total seen cs = .ok (a, position, rest)) :
    (splitKey cs).1 = a.key ∧ ∃ afterEquals q afterQuote,
      skipSpace (splitKey cs).2 = '=' :: afterEquals ∧ skipSpace afterEquals = q :: afterQuote ∧
        afterQuote.dropWhile (· != q) = q :: rest := by
  simp only [scanAttribute] at h
  split at h
  next afterEquals hequals =>
    split at h
    · simp at h
    · split at h
      · simp at h
      next q afterQuote hquote =>
        split at h
        · split at h
          · simp at h
          next c cs hvalue =>
            simp only [Except.ok.injEq, Prod.mk.injEq] at h
            obtain ⟨rfl, -, rfl⟩ := h
            -- What ends the value is the quotation mark that it began with.
            have hc := List.head?_dropWhile_not (· != q) afterQuote
            simp only [hvalue, List.head?_cons, bne_eq_false_iff_eq] at hc
            exact ⟨rfl, afterEquals, q, afterQuote, hequals, hquote, by rw [hvalue, hc]⟩
        · simp at h
  next => simp at h

/-- A part of a text that begins with an escaped value holds the whole value if it holds the
quotation mark behind it. -/
theorem exists_of_dropWhile_quote {value : String} {part rest behind : List Char}
    (hpart : part <+: escape value.toList ++ '"' :: behind)
    (hquote : part.dropWhile (· != '"') = '"' :: rest) :
    part = escape value.toList ++ '"' :: rest ∧ rest <+: behind := by
  have hvalue : ∀ c ∈ escape value.toList, (c != '"') = true := by
    intro c hc
    rw [bne_iff_ne]
    rintro rfl
    exact not_mem_escape rfl (by decide) value.toList hc
  have hwhole : ¬part <+: escape value.toList := by
    intro hle
    have hnil : part.dropWhile (· != '"') = [] := by
      rw [List.dropWhile_eq_nil_iff]
      intro c hc
      exact hvalue c (hle.mem hc)
    simp [hnil] at hquote
  obtain hle | ⟨more, rfl⟩ := List.prefix_or_prefix_of_prefix hpart (List.prefix_append _ _)
  · exact absurd hle hwhole
  · rw [List.dropWhile_append_of_pos hvalue] at hquote
    have hmore := (List.prefix_append_right_inj _).1 hpart
    cases more with
    | nil => simp at hquote
    | cons c cs =>
      obtain ⟨rfl, hcs⟩ := List.cons_prefix_cons.1 hmore
      obtain rfl : cs = rest := by simpa using hquote
      exact ⟨rfl, hcs⟩

/-- A part of a text that begins with a written attribute, without the space before it, holds the
whole attribute if the attribute is found in it. -/
theorem exists_of_scanAttribute_prefix {key value : String} (hkey : IsKey key.toList)
    {part rest behind : List Char}
    (hpart : part <+: key.toList ++ '=' :: '"' :: (escape value.toList ++ '"' :: behind))
    {total : Nat} {seen : List (List Char × Nat)} {c : Char} {cs : List Char} {a : RawAttribute}
    {position : Nat} (hskip : skipSpace part = c :: cs)
    (hscan : scanAttribute total seen (c :: cs) = .ok (a, position, rest))
    (hfound : a.key = key.toList) :
    part = key.toList ++ '=' :: '"' :: (escape value.toList ++ '"' :: rest) ∧ rest <+: behind := by
  obtain ⟨hsplit, afterEquals, q, afterQuote, hequals, hquote, hvalue⟩ :=
    exists_of_scanAttribute hscan
  -- The part begins with a character of the key, so that no white space is passed over.
  have htext : c :: cs = part := by
    rw [← hskip]
    cases part with
    | nil => rfl
    | cons d ds =>
      cases hchars : key.toList with
      | nil => simp [hchars, IsKey] at hkey
      | cons k ks =>
        rw [hchars] at hpart hkey
        rw [(List.cons_prefix_cons.1 hpart).1]
        simp [skipSpace, hkey.1]
  have hcut : c :: cs = key.toList ++ (splitKey (c :: cs)).2 := by
    rw [← hfound, ← hsplit, splitKey_fst_append_snd]
  rw [← htext, hcut, List.prefix_append_right_inj] at hpart
  rw [← htext, hcut, List.append_cancel_left_eq]
  -- From here on the part is followed to the mark behind the value, as scanning has met it.
  generalize (splitKey (c :: cs)).2 = behindKey at hpart hequals
  cases behindKey with
  | nil => simp [skipSpace] at hequals
  | cons d ds =>
    obtain ⟨rfl, hds⟩ := List.cons_prefix_cons.1 hpart
    obtain rfl : ds = afterEquals := by simpa [skipSpace, isSpace] using hequals
    cases ds with
    | nil => simp [skipSpace] at hquote
    | cons d es =>
      obtain ⟨rfl, hes⟩ := List.cons_prefix_cons.1 hds
      obtain ⟨rfl, rfl⟩ : '"' = q ∧ es = afterQuote := by simpa [skipSpace, isSpace] using hquote
      obtain ⟨rfl, hrest⟩ := exists_of_dropWhile_quote hes hvalue
      exact ⟨rfl, hrest⟩

/-- A part of written attributes in which all of their keys are found is the whole. -/
theorem eq_of_scanAttributesFrom_prefix {attributes : Attributes}
    (hkeys : ∀ a ∈ attributes, IsKey a.1.toList) {part : List Char}
    (hpart : part <+: attributes.flatMap printAttribute) {total : Nat}
    {seen : List (List Char × Nat)}
    (hitems : (scanAttributesFrom total seen part).items.map RawAttribute.key =
      attributes.map fun a => a.1.toList) : part = attributes.flatMap printAttribute := by
  induction attributes generalizing part seen with
  | nil => exact List.prefix_nil.1 hpart
  | cons a others ih =>
    obtain ⟨key, value⟩ := a
    cases hskip : skipSpace part with
    | nil => simp [scanAttributesFrom_nil hskip] at hitems
    | cons c cs =>
      cases hscan : scanAttribute total seen (c :: cs) with
      | error e => simp [scanAttributesFrom_error hskip hscan] at hitems
      | ok found =>
        obtain ⟨a, position, rest⟩ := found
        rw [scanAttributesFrom_ok hskip hscan, Scan.items_cons, List.map_cons, List.map_cons,
          List.cons.injEq] at hitems
        rw [flatMap_printAttribute_cons] at hpart ⊢
        cases part with
        | nil => simp [skipSpace] at hskip
        | cons d inner =>
          obtain ⟨rfl, hinner⟩ := List.cons_prefix_cons.1 hpart
          obtain ⟨rfl, hrest⟩ := exists_of_scanAttribute_prefix (hkeys _ List.mem_cons_self) hinner
            hskip hscan hitems.1
          rw [ih (fun b hb => hkeys b (List.mem_cons_of_mem _ hb)) hrest hitems.2]

/-- A scan that finds nothing and meets no failure has only white space before it. -/
theorem skipSpace_eq_nil_of_scanAttributesFrom {total : Nat} {seen : List (List Char × Nat)}
    {cs : List Char} (hitems : (scanAttributesFrom total seen cs).items = [])
    (hfailure : (scanAttributesFrom total seen cs).failure = none) : skipSpace cs = [] := by
  cases hskip : skipSpace cs with
  | nil => rfl
  | cons c key =>
    cases hscan : scanAttribute total seen (c :: key) with
    | error e => simp [scanAttributesFrom_error hskip hscan] at hfailure
    | ok found =>
      obtain ⟨a, position, rest⟩ := found
      simp [scanAttributesFrom_ok hskip hscan, Scan.cons] at hitems

/-! ## Parts of tags -/

variable {name : String} {attributes : Attributes}

theorem readAttributes_of_bracket {t : Tag} (h : t.bracket = .opening name attributes) :
    t.name = name.toList ∧ Builder.readAttributes t.attributes = .ok attributes := by
  unfold Tag.bracket at h
  split at h
  next as hattributes =>
    obtain ⟨rfl, rfl⟩ := Bracket.opening.inj h
    exact ⟨String.toList_ofList.symm, hattributes⟩
  next => simp at h

/-- A part of a written tag that is taken for the tag is the whole tag. -/
theorem eq_printTag_of_prefix (hkeys : ∀ a ∈ attributes, IsKey a.1.toList) {part : List Char}
    (hpart : part <+: printTag name attributes)
    (h : (Tag.mk part).bracket = .opening name attributes) : part = printTag name attributes := by
  obtain ⟨hname, hattributes⟩ := readAttributes_of_bracket h
  obtain ⟨hitems, -⟩ := map_key_of_readAttributes hattributes
  have hcut : part = name.toList ++ part.dropWhile (!isSpace ·) := by
    rw [← hname, Tag.name, List.takeWhile_append_dropWhile]
  rw [printTag, hcut, List.prefix_append_right_inj] at hpart
  rw [hcut, printTag, eq_of_scanAttributesFrom_prefix hkeys hpart hitems]

/-- A text that goes on behind a written tag is not taken for the tag, unless it goes on with white
space. -/
theorem eq_nil_of_bracket (htag : IsReadableTag name attributes) {more : List Char}
    (hmore : ∀ c, more.head? = some c → isSpace c = false)
    (h : (Tag.mk (printTag name attributes ++ more)).bracket = .opening name attributes) :
    more = [] := by
  obtain ⟨hname, hattributes⟩ := readAttributes_of_bracket h
  obtain ⟨hitems, hfailure⟩ := map_key_of_readAttributes hattributes
  have hspace : ∀ c ∈ name.toList, (!isSpace c) = true := by
    intro c hc
    rw [htag.isName c hc]
    rfl
  cases attributes with
  | nil =>
    -- Without attributes the text goes on in the name.
    cases more with
    | nil => rfl
    | cons c cs =>
      simp only [Tag.name, printTag, List.flatMap_nil, List.append_nil] at hname
      rw [List.takeWhile_append_of_pos hspace, List.takeWhile_cons, hmore c rfl] at hname
      simp at hname
  | cons a rest =>
    -- With attributes, something is found behind them, or a failure is met.
    have hdrop : (printTag name (a :: rest) ++ more).dropWhile (!isSpace ·) =
        (a :: rest).flatMap printAttribute ++ more := by
      rw [printTag, List.append_assoc, List.dropWhile_append_of_pos hspace]
      simp [printAttribute, isSpace]
    obtain ⟨seen, hscan⟩ := exists_scanAttributesFrom_print htag.areReadable
      (fun k hk => absurd hk List.not_mem_nil) (Utf8.size (printTag name (a :: rest) ++ more)) more
    simp only [Tag.attributes, scanAttributes, hdrop, hscan, List.map_append] at hitems hfailure
    have hkeys : ((a :: rest).map rawAttribute).map RawAttribute.key =
        (a :: rest).map fun b => b.1.toList := by
      rw [List.map_map]
      rfl
    rw [hkeys, List.append_right_eq_self, List.map_eq_nil_iff] at hitems
    have hskip := skipSpace_eq_nil_of_scanAttributesFrom hitems hfailure
    cases more with
    | nil => rfl
    | cons c cs => simp [skipSpace, hmore c rfl] at hskip

/-- A part of a text with a written tag that is taken for the tag is the tag. -/
theorem eq_printTag_of_bracket (htag : IsReadableTag name attributes) {part behind : List Char}
    (hbehind : ∀ c, behind.head? = some c → isSpace c = false)
    (hpart : part <+: printTag name attributes ++ behind)
    (h : (Tag.mk part).bracket = .opening name attributes) : part = printTag name attributes := by
  obtain hle | ⟨more, rfl⟩ := List.prefix_or_prefix_of_prefix hpart (List.prefix_append _ _)
  · exact eq_printTag_of_prefix htag.areReadable.keys hle h
  · rw [List.prefix_append_right_inj] at hpart
    have hmore : ∀ c, more.head? = some c → isSpace c = false := by
      intro c hc
      obtain ⟨others, rfl⟩ := hpart
      exact hbehind c (by rw [List.head?_append, hc]; rfl)
    rw [eq_nil_of_bracket htag hmore h, List.append_nil]

namespace Reader

variable {r r' : Reader} {e : Event}

theorem eq_closed_of_endTag (h : r.endTag = .ok (e, r')) : e = .closed := by
  obtain ⟨content, rest, -, -, hevent⟩ := exists_of_enclosed h
  simp only [finish] at hevent
  split at hevent
  · simp at hevent
  · split at hevent
    · exact (Prod.mk.inj (Except.ok.inj hevent)).1.symm
    · simp at hevent

/-- A start tag is cut off at its `>`, and at the slash before it if there is one. -/
theorem exists_of_startTag (h : r.startTag = .ok (e, r')) {more behind : List Bracket}
    {b : Bracket} (hbrackets : e.brackets ++ more = b :: behind) :
    ∃ part slash rest, r.rest = part ++ (slash ++ '>' :: rest) ∧
      tagEnding.pass none (part ++ slash) = some none ∧
      (slash = [] ∧ part.getLast? ≠ some '/' ∨ slash = ['/']) ∧ (Tag.mk part).bracket = b := by
  obtain ⟨content, rest, hrest, hencloses, hevent⟩ := exists_of_enclosed h
  rw [tagEnding_encloses_iff] at hencloses
  simp only [start, Except.ok.injEq] at hevent
  split at hevent
  next hlast =>
    obtain ⟨rfl, -⟩ := Prod.mk.inj hevent
    have hcontent : content.dropLast ++ ['/'] = content := by
      obtain ⟨front, rfl⟩ := List.getLast?_eq_some_iff.1 hlast
      simp
    refine ⟨content.dropLast, ['/'], rest, ?_, ?_, .inr rfl, (List.cons.inj hbrackets).1⟩
    · rw [hrest, ← List.append_assoc, hcontent]
    · rw [hcontent, hencloses]
  next hlast =>
    obtain ⟨rfl, -⟩ := Prod.mk.inj hevent
    refine ⟨content, [], rest, hrest, ?_, .inl ⟨rfl, hlast⟩, (List.cons.inj hbrackets).1⟩
    rw [List.append_nil, hencloses]

/-- A slash that closes a tag stands outside its quotes. -/
theorem pass_of_append_slash {cs : List Char}
    (h : tagEnding.pass none (cs ++ ['/']) = some none) : tagEnding.pass none cs = some none := by
  rw [Ending.pass_append] at h
  obtain ⟨s, hs, hslash⟩ := Option.bind_eq_some_iff.1 h
  rw [pass_of_plain (isQuoting_of_pass .none hs) (by simp)] at hslash
  rw [hs, hslash]

/-- What is read as the start of an element is the tag that is written for it: no quote in it is
open, it is no end tag, and it closes itself only if this is meant. -/
theorem quotes_of_markup (htag : IsReadableTag name attributes) {closing tail : List Char}
    (hclosing : closing = [] ∨ closing = ['/'])
    (hrest : r.rest = printTag name attributes ++ (closing ++ '>' :: tail))
    (h : r.markup = .ok (e, r')) {more behind : List Bracket}
    (hbrackets : e.brackets ++ more = .opening name attributes :: behind) :
    tagEnding.pass none (printTag name attributes) = some none ∧
      (closing = ['/'] → attributes = [] → name ≠ "") ∧
      (closing = [] → attributes = [] → name.toList.getLast? ≠ some '/') := by
  have hnamed : closing = ['/'] → attributes = [] → name ≠ "" := by
    rintro rfl rfl rfl
    -- The slash would be the first character, so that an end tag would be read.
    have hslash : r.markup = r.endTag := by
      rw [markup, hrest]
      rfl
    rw [eq_closed_of_endTag (hslash.symm.trans h)] at hbrackets
    simp [Event.brackets] at hbrackets
  have hstart : r.markup = r.startTag := by
    refine markup_eq_startTag fun c hc => ?_
    rw [hrest] at hc
    refine head_printTag htag (fun hnone hempty d hd => ?_) hc
    rcases hclosing with rfl | rfl
    · obtain rfl : '>' = d := by simpa using hd
      decide
    · exact absurd hempty (hnamed rfl hnone)
  obtain ⟨part, slash, rest, htext, hpass, hslash, hbracket⟩ :=
    exists_of_startTag (hstart.symm.trans h) hbrackets
  obtain rfl : part = printTag name attributes := by
    refine eq_printTag_of_bracket htag (fun c hc => ?_) ⟨_, (htext.symm.trans hrest)⟩ hbracket
    rcases hclosing with rfl | rfl <;> obtain rfl := Option.some.inj hc <;> rfl
  rw [hrest, List.append_cancel_left_eq] at htext
  refine ⟨?_, hnamed, ?_⟩
  · rcases hslash with ⟨rfl, -⟩ | rfl
    · rwa [List.append_nil] at hpass
    · exact pass_of_append_slash hpass
  · rintro rfl rfl
    -- The tag is nothing but its name, and it has not been cut off at a slash.
    rcases hslash with ⟨-, hlast⟩ | rfl
    · simpa [printTag] using hlast
    · simp at htext

/-- The same for the tag behind white space whose bracket comes first. -/
theorem quotes_of_brackets (htag : IsReadableTag name attributes) {text closing tail : List Char}
    (hclosing : closing = [] ∨ closing = ['/'])
    (htext : skipSpace text = '<' :: (printTag name attributes ++ (closing ++ '>' :: tail)))
    {consumed : Nat} {tags : List (List Char)} {behind : List Bracket}
    (h : scanBrackets (Reader.mk text consumed tags).events =
      .opening name attributes :: behind) :
    tagEnding.pass none (printTag name attributes) = some none ∧
      (closing = ['/'] → attributes = [] → name ≠ "") ∧
      (closing = [] → attributes = [] → name.toList.getLast? ≠ some '/') := by
  obtain ⟨consumed', hnext⟩ := next_of_skipSpace htext consumed tags
  cases hmarkup :
      markup ⟨printTag name attributes ++ (closing ++ '>' :: tail), consumed', tags⟩ with
  | error f =>
    rw [hmarkup] at hnext
    simp [events_of_next_error hnext, scanBrackets] at h
  | ok found =>
    obtain ⟨e, r'⟩ := found
    rw [hmarkup] at hnext
    rw [events_of_next hnext, scanBrackets_prepend, List.flatMap_singleton] at h
    exact quotes_of_markup htag hclosing rfl hmarkup h

/-- Behind events that are read from a text, the brackets are those that are left. -/
theorem Reads.exists_scanBrackets {text tail : List Char} {tags tags' : List (List Char)}
    {es : List Event} (h : Reads text tags es tail tags') {consumed : Nat}
    {behind : List Bracket} (hbrackets : scanBrackets (Reader.mk text consumed tags).events =
      es.flatMap Event.brackets ++ behind) :
    ∃ consumed', scanBrackets (Reader.mk tail consumed' tags').events = behind := by
  obtain ⟨consumed', hevents⟩ := h consumed
  rw [hevents, scanBrackets_prepend, List.append_cancel_left_eq] at hbrackets
  exact ⟨consumed', hbrackets⟩

end Reader

/-! ## Contents -/

namespace Content

/-- An element without content in whose text its brackets are found is delimited. -/
theorem exists_of_brackets_selfClosed (htag : IsReadableTag name attributes)
    {opening tail : List Char}
    (hopening : ∀ rest, skipSpace (opening ++ '<' :: rest) = '<' :: rest)
    {consumed : Nat} {tags : List (List Char)} {behind : List Bracket}
    (h : scanBrackets (Reader.mk
      (opening ++ '<' :: (printTag name attributes ++ '/' :: '>' :: tail)) consumed tags).events =
        .opening name attributes :: .closing :: behind) :
    IsDelimitedTag name attributes .nil ∧
      ∃ consumed', scanBrackets (Reader.mk tail consumed' tags).events = behind := by
  obtain ⟨hquotes, hnamed, -⟩ := Reader.quotes_of_brackets htag (.inr rfl) (hopening _) h
  refine ⟨⟨hquotes, fun hnone _ => hnamed rfl hnone, fun _ hne => absurd rfl hne⟩, ?_⟩
  have hreads := Reader.reads_markup (hopening _)
    (Reader.markup_selfClosed htag hquotes (hnamed rfl) tail tags)
  refine hreads.exists_scanBrackets (h.trans ?_)
  rw [List.flatMap_singleton, Event.brackets, bracket_printTag htag]
  rfl

/-- The same for the start tag of an element. -/
theorem exists_of_brackets_opened (htag : IsReadableTag name attributes)
    {opening tail : List Char}
    (hopening : ∀ rest, skipSpace (opening ++ '<' :: rest) = '<' :: rest)
    {consumed : Nat} {tags : List (List Char)} {behind : List Bracket}
    (h : scanBrackets (Reader.mk (opening ++ '<' :: (printTag name attributes ++ '>' :: tail))
      consumed tags).events = .opening name attributes :: behind) :
    tagEnding.pass none (printTag name attributes) = some none ∧
      (attributes = [] → name.toList.getLast? ≠ some '/') ∧
      ∃ consumed', scanBrackets (Reader.mk tail consumed' (name.toList :: tags)).events =
        behind := by
  obtain ⟨hquotes, -, hslash⟩ := Reader.quotes_of_brackets htag (.inl rfl) (hopening _) h
  refine ⟨hquotes, hslash rfl, ?_⟩
  have hreads := Reader.reads_markup (hopening _)
    (Reader.markup_opened htag hquotes (hslash rfl) tail tags)
  refine hreads.exists_scanBrackets (h.trans ?_)
  rw [List.flatMap_singleton, Event.brackets, bracket_printTag htag]
  rfl

/-- A content in whose text its brackets are found is delimited. -/
theorem isDelimited_of_brackets {c : Content} (hreadable : c.IsReadable) (hmerged : c.IsMerged)
    (depth : Nat) (afterText : Bool) {tail : List Char}
    (htail : c.endsInText = true → ∃ rest, tail = '<' :: rest) (tags : List (List Char))
    (consumed : Nat) {behind : List Bracket}
    (h : scanBrackets (Reader.mk (c.print depth afterText ++ tail) consumed tags).events =
      c.brackets ++ behind) : c.IsDelimited := by
  induction c generalizing depth afterText tail tags consumed behind with
  | nil => trivial
  | element name attributes children rest ihChildren ihRest =>
    obtain ⟨htag, hname, hchildren, hrest⟩ := hreadable
    rw [endsInText_element] at htail
    by_cases hnil : children = nil
    · subst hnil
      rw [print_element_nil_append] at h
      obtain ⟨hdelimited, consumed', hbehind⟩ :=
        exists_of_brackets_selfClosed htag (skipSpace_breakUnless afterText depth) h
      exact ⟨hdelimited, trivial, ihRest hrest hmerged.2 depth false htail tags consumed' hbehind⟩
    · have hbrackets : (element name attributes children rest).brackets ++ behind =
          .opening name attributes :: (children.brackets ++
            ([.closing] ++ (rest.brackets ++ behind))) := by
        simp [brackets]
      have hclosing := (exists_closing_of_endsInText (c := children) · depth name
        (rest.print depth false ++ tail))
      rw [print_element_append name attributes rest depth afterText tail hnil, hbrackets] at h
      obtain ⟨hquotes, hslash, consumed₁, hinner⟩ :=
        exists_of_brackets_opened htag (skipSpace_breakUnless afterText depth) h
      have hinside := ihChildren hchildren hmerged.1 (depth + 1) false hclosing _ consumed₁ hinner
      -- With the content delimited, its text is read as its events, and then the end tag is.
      have hreads := reads_print hchildren hinside hmerged.1 (depth + 1) false hclosing
        (name.toList :: tags)
      rw [← brackets_events hchildren] at hinner
      obtain ⟨consumed₂, hend⟩ := hreads.exists_scanBrackets hinner
      have hclose := Reader.reads_markup (skipSpace_breakUnless children.endsInText depth _)
        (Reader.markup_closed htag.isName (hname hnil) (rest.print depth false ++ tail) tags)
      rw [closing_append] at hend
      obtain ⟨consumed₃, hbehind⟩ := hclose.exists_scanBrackets hend
      exact ⟨⟨hquotes, fun _ h => absurd h hnil, fun hnone _ => hslash hnone⟩, hinside,
        ihRest hrest hmerged.2 depth false htail tags consumed₃ hbehind⟩
  | text t rest ih =>
    obtain ⟨hbegins, hmergedRest⟩ := hmerged
    have hmarkup : rest = nil → ∃ behind, tail = '<' :: behind := by
      rintro rfl
      exact htail rfl
    obtain ⟨after, hafter⟩ := exists_print_of_beginsWithText hbegins hmarkup depth
    have htext := Reader.reads_escape t.toList after tags
    rw [← hafter] at htext
    rw [print_text, List.append_assoc] at h
    obtain ⟨consumed', hrest⟩ :=
      htext.exists_scanBrackets (h.trans (by rw [brackets_textEvents]; rfl))
    exact ih hreadable hmergedRest depth true
      (fun hends => htail (endsInText_text_of_endsInText hends t)) tags consumed' hrest
  | comment t rest ih =>
    rw [endsInText_comment] at htail
    have hcomment := Reader.reads_markup (skipSpace_breakUnless afterText depth _)
      (Reader.markup_comment hreadable.1 (rest.print depth false ++ tail) tags)
    rw [print_comment_append] at h
    obtain ⟨consumed', hrest⟩ := hcomment.exists_scanBrackets h
    exact ih hreadable.2 hmerged depth false htail tags consumed' hrest

end Content

/-! ## Documents -/

/-- A document that is read back as a root element with the same brackets is delimited. -/
theorem isDelimited_of_readRoot_print {root root' : Element}
    (htag : IsReadableTag root.name root.attributes) (hreadable : root.children.IsReadable)
    (hread : readRoot (String.ofList root.print) = .ok root')
    (hbrackets : root'.brackets = root.brackets) :
    tagEnding.pass none (printTag root.name root.attributes) = some none ∧
      root.children.IsDelimited := by
  have htext : root.print = [] ++ '<' :: (printTag root.name root.attributes ++ '>' ::
      (root.children.mergeTexts.print 1 false ++
        (breakUnless root.children.endsInText 0 ++ printEndTag root.name ++ ['\n']))) := by
    simp [Element.print_eq, Content.print_mergeTexts]
  have hstart : Reader.ofChars root.print = ⟨root.print, 0, []⟩ := by rw [htext]; rfl
  have hscan : scanBrackets (Reader.mk root.print 0 []).events =
      .opening root.name root.attributes ::
        (root.children.mergeTexts.brackets ++ [.closing]) := by
    rw [← hstart, Content.brackets_mergeTexts, ← Element.brackets, ← hbrackets,
      ← brackets_of_readRoot hread, events, String.toList_ofList]
  have hopening (rest : List Char) : skipSpace ([] ++ '<' :: rest) = '<' :: rest := rfl
  rw [htext] at hscan
  obtain ⟨hquotes, -, consumed, hinner⟩ :=
    Content.exists_of_brackets_opened htag hopening hscan
  refine ⟨hquotes, Content.isDelimited_mergeTexts.1 ?_⟩
  refine Content.isDelimited_of_brackets (Content.isReadable_mergeTexts hreadable)
    root.children.isMerged_mergeTexts 1 false (fun hends => ?_) _ consumed hinner
  rw [Content.endsInText_mergeTexts] at hends
  exact Content.exists_closing_of_endsInText hends 0 root.name ['\n']

end IntentFirewall.Xml
