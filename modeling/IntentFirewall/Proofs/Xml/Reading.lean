import IntentFirewall.Proofs.Xml.Readable

/-!
# Reading written markup

What a reader meets at the start of written markup, whatever stands behind it.

* `Reader.Reads`: the events that a text is read as, up to what stands behind it.
* `Reader.markup_opened`, `Reader.markup_selfClosed`, `Reader.markup_closed`,
  `Reader.markup_comment`: written tags and comments are read as the events that they stand for.
* `Reader.reads_escape`: a written text is read as the text without the white space at its ends.
-/

namespace IntentFirewall

/-- Values put before those of a scan. -/
def Scan.prepend {ε α : Type} (items : List α) (s : Scan ε α) : Scan ε α :=
  ⟨items ++ s.items, s.failure⟩

theorem Scan.prepend_append {ε α : Type} (as bs : List α) (s : Scan ε α) :
    s.prepend (as ++ bs) = (s.prepend bs).prepend as := by
  simp [prepend]

/-! ## Steps that can fail -/

section

variable {ε α β : Type} {f : β → α → Except ε β} {b b' : β}

theorem foldlM_cons_of_ok {a : α} (h : f b a = .ok b') (as : List α) :
    (a :: as).foldlM f b = as.foldlM f b' := by
  rw [List.foldlM_cons, h]
  rfl

theorem foldlM_append_of_ok {as : List α} (h : as.foldlM f b = .ok b') (bs : List α) :
    (as ++ bs).foldlM f b = bs.foldlM f b' := by
  rw [List.foldlM_append, h]
  rfl

/-- Steps that succeed succeed one after the other. -/
theorem foldlM_append_eq_ok_iff {as bs : List α} : (as ++ bs).foldlM f b = .ok b' ↔
    ∃ b₁, as.foldlM f b = .ok b₁ ∧ bs.foldlM f b₁ = .ok b' := by
  constructor
  · intro h
    cases has : as.foldlM f b with
    | error e => simp [List.foldlM_append, has, bind, Except.bind] at h
    | ok b₁ => exact ⟨b₁, rfl, (foldlM_append_of_ok has bs).symm.trans h⟩
  · rintro ⟨b₁, has, hbs⟩
    exact (foldlM_append_of_ok has bs).trans hbs

theorem foldlM_singleton_eq (f : β → α → Except ε β) (b : β) (a : α) :
    [a].foldlM f b = f b a := by
  rw [List.foldlM_cons]
  exact bind_pure (f b a)

theorem foldlM_cons_eq_ok_iff {a : α} {as : List α} : (a :: as).foldlM f b = .ok b' ↔
    ∃ b₁, f b a = .ok b₁ ∧ as.foldlM f b₁ = .ok b' := by
  rw [← List.singleton_append, foldlM_append_eq_ok_iff]
  simp only [foldlM_singleton_eq]

theorem foldlM_concat_eq_ok_iff {a : α} {as : List α} : (as ++ [a]).foldlM f b = .ok b' ↔
    ∃ b₁, as.foldlM f b = .ok b₁ ∧ f b₁ a = .ok b' := by
  simp only [foldlM_append_eq_ok_iff, foldlM_singleton_eq]

end

namespace Xml

/-- The start tag that an event is. -/
def Event.startTag? : Event → Option Tag
  | .opened tag => some tag
  | .selfClosed tag => some tag
  | _ => none

/-- The start tags among events. -/
def startTags (es : List Event) : List Tag := es.filterMap Event.startTag?

/-! ## Places in a document -/

namespace Reader

theorem events_of_next {r r' : Reader} {e : Event} (h : r.next = .ok (some (e, r'))) :
    r.events = r'.events.prepend [e] := by
  rw [events]
  split
  next heq => simp [h] at heq
  next heq => simp [h] at heq
  next e₁ r₁ heq =>
    rw [h] at heq
    obtain ⟨rfl, rfl⟩ : e = e₁ ∧ r' = r₁ := by simpa using heq
    rfl

theorem events_of_next_error {r : Reader} {f : SyntaxFault} (h : r.next = .error f) :
    r.events = ⟨[], some f⟩ := by
  rw [events]
  split
  next heq =>
    obtain rfl := Except.error.inj (h.symm.trans heq)
    rfl
  next heq => simp [h] at heq
  next heq => simp [h] at heq

theorem events_of_next_none {r : Reader} (h : r.next = .ok none) : r.events = ⟨[], none⟩ := by
  rw [events]
  split
  next heq => simp [h] at heq
  next => rfl
  next heq => simp [h] at heq

/-- The next event is that of the markup behind white space. -/
theorem next_of_skipSpace {text rest : List Char} (h : skipSpace text = '<' :: rest)
    (consumed : Nat) (tags : List (List Char)) :
    ∃ consumed', (Reader.mk text consumed tags).next =
      (markup ⟨rest, consumed', tags⟩).map some := by
  rw [next]
  simp only [skip, h]
  exact ⟨_, rfl⟩

/-- The given events are read from the start of a text on, up to the start of another one. The
lists of names are those of the elements that are open at the two places. -/
def Reads (text : List Char) (tags : List (List Char)) (es : List Event) (tail : List Char)
    (tags' : List (List Char)) : Prop :=
  ∀ consumed, ∃ consumed', (Reader.mk text consumed tags).events =
    (Reader.mk tail consumed' tags').events.prepend es

section

variable {text middle tail : List Char} {tags tags' tags'' : List (List Char)}

theorem Reads.nil : Reads text tags [] text tags := fun consumed => ⟨consumed, rfl⟩

theorem Reads.append {es fs : List Event} (h : Reads text tags es middle tags')
    (h' : Reads middle tags' fs tail tags'') : Reads text tags (es ++ fs) tail tags'' := by
  intro consumed
  obtain ⟨consumed₁, hes⟩ := h consumed
  obtain ⟨consumed₂, hfs⟩ := h' consumed₁
  refine ⟨consumed₂, ?_⟩
  rw [hes, hfs, Scan.prepend_append]

/-- The event of markup behind white space is the next one. -/
theorem reads_markup {rest : List Char} (h : skipSpace text = '<' :: rest) {e : Event}
    (hmarkup : ∀ consumed, ∃ consumed', markup ⟨rest, consumed, tags⟩ =
      .ok (e, ⟨tail, consumed', tags'⟩)) : Reads text tags [e] tail tags' := by
  intro consumed
  obtain ⟨consumed₁, hnext⟩ := next_of_skipSpace h consumed tags
  obtain ⟨consumed₂, hmarkup⟩ := hmarkup consumed₁
  rw [hmarkup] at hnext
  exact ⟨consumed₂, events_of_next hnext⟩

end

/-! ## Kinds of markup -/

theorem markup_eq_startTag {r : Reader}
    (h : ∀ c, r.rest.head? = some c → c ≠ '!' ∧ c ≠ '?' ∧ c ≠ '/') :
    r.markup = r.startTag := by
  rw [markup]
  split <;> first | rfl | simp_all

variable {name : String} {attributes : Attributes} {children : Content}

/-- What a written tag begins with is not what other markup begins with. -/
theorem head_printTag (h : IsReadableTag name attributes) {behind : List Char}
    (hbehind : attributes = [] → name = "" → ∀ c, behind.head? = some c →
      c ≠ '!' ∧ c ≠ '?' ∧ c ≠ '/') {c : Char}
    (hc : (printTag name attributes ++ behind).head? = some c) : c ≠ '!' ∧ c ≠ '?' ∧ c ≠ '/' := by
  cases hname : name.toList with
  | cons d ds =>
    refine h.start c ?_
    simpa [printTag, hname] using hc
  | nil =>
    -- Behind an empty name comes the space before the first attribute, or what follows the tag.
    cases attributes with
    | nil =>
      refine hbehind rfl (String.toList_eq_nil_iff.1 hname) c ?_
      simpa [printTag, hname] using hc
    | cons a rest =>
      obtain rfl : ' ' = c := by simpa [printTag, hname, printAttribute] using hc
      decide

/-- The last character of a written tag is a slash only if the tag is nothing but a name. -/
theorem getLast?_printTag_ne (h : attributes = [] → name.toList.getLast? ≠ some '/') :
    (printTag name attributes).getLast? ≠ some '/' := by
  cases attributes using List.reverseRecOn with
  | nil => simpa [printTag] using h rfl
  | append_singleton rest a =>
    -- The last character is the quotation mark behind the last value.
    have hend : printTag name (rest ++ [a]) =
        (printTag name rest ++ ' ' :: a.1.toList ++ '=' :: '"' :: escape a.2.toList) ++ ['"'] := by
      simp [printTag, printAttribute]
    rw [hend, List.getLast?_concat]
    decide

/-- A tag is read as the start of an element if it begins like no other markup and ends, with its
quotes closed, without a slash. -/
theorem markup_opened_of_content {content tail : List Char}
    (hhead : ∀ c, (content ++ '>' :: tail).head? = some c → c ≠ '!' ∧ c ≠ '?' ∧ c ≠ '/')
    (hquotes : tagEnding.pass none content = some none) (hslash : content.getLast? ≠ some '/')
    (tags : List (List Char)) (consumed : Nat) :
    ∃ consumed', markup ⟨content ++ '>' :: tail, consumed, tags⟩ =
      .ok (.opened ⟨content⟩, ⟨tail, consumed', (Tag.mk content).name :: tags⟩) := by
  rw [markup_eq_startTag hhead, startTag, enclosed,
    Ending.split_append (tagEnding_encloses_iff.2 hquotes)]
  simp only [start, if_neg hslash, behind]
  exact ⟨_, rfl⟩

/-- With a slash behind it, it is read as an element without content. -/
theorem markup_selfClosed_of_content {content tail : List Char}
    (hhead : ∀ c, (content ++ '/' :: '>' :: tail).head? = some c → c ≠ '!' ∧ c ≠ '?' ∧ c ≠ '/')
    (hquotes : tagEnding.pass none content = some none) (tags : List (List Char))
    (consumed : Nat) :
    ∃ consumed', markup ⟨content ++ '/' :: '>' :: tail, consumed, tags⟩ =
      .ok (.selfClosed ⟨content⟩, ⟨tail, consumed', tags⟩) := by
  have hslash : tagEnding.pass none (content ++ ['/']) = some none := by
    rw [Ending.pass_append, hquotes]
    rfl
  have htext : content ++ '/' :: '>' :: tail = (content ++ ['/']) ++ '>' :: tail := by simp
  rw [markup_eq_startTag hhead, startTag, enclosed, htext,
    Ending.split_append (tagEnding_encloses_iff.2 hslash)]
  simp only [start, behind, List.getLast?_concat, if_true, List.dropLast_concat]
  exact ⟨_, rfl⟩

/-- A written tag is read as the start of an element. -/
theorem markup_opened (h : IsReadableTag name attributes)
    (hquotes : tagEnding.pass none (printTag name attributes) = some none)
    (hslash : attributes = [] → name.toList.getLast? ≠ some '/') (tail : List Char)
    (tags : List (List Char)) (consumed : Nat) :
    ∃ consumed', markup ⟨printTag name attributes ++ '>' :: tail, consumed, tags⟩ =
      .ok (.opened ⟨printTag name attributes⟩, ⟨tail, consumed', name.toList :: tags⟩) := by
  have hhead : ∀ c, (printTag name attributes ++ '>' :: tail).head? = some c →
      c ≠ '!' ∧ c ≠ '?' ∧ c ≠ '/' := fun c => head_printTag h fun _ _ d hd => by
    obtain rfl : '>' = d := by simpa using hd
    decide
  rw [← name_printTag h.isName]
  exact markup_opened_of_content hhead hquotes (getLast?_printTag_ne hslash) tags consumed

/-- A written tag with a slash behind it is read as an element without content. -/
theorem markup_selfClosed (h : IsReadableTag name attributes)
    (hquotes : tagEnding.pass none (printTag name attributes) = some none)
    (hnamed : attributes = [] → name ≠ "") (tail : List Char) (tags : List (List Char))
    (consumed : Nat) :
    ∃ consumed', markup ⟨printTag name attributes ++ '/' :: '>' :: tail, consumed, tags⟩ =
      .ok (.selfClosed ⟨printTag name attributes⟩, ⟨tail, consumed', tags⟩) := by
  have hhead : ∀ c, (printTag name attributes ++ '/' :: '>' :: tail).head? = some c →
      c ≠ '!' ∧ c ≠ '?' ∧ c ≠ '/' := fun c =>
    head_printTag h fun hnone hempty => absurd hempty (hnamed hnone)
  exact markup_selfClosed_of_content hhead hquotes tags consumed

/-- A name that can stand in a tag has no white space that could be cut off. -/
theorem endName_of_isName {name : List Char} (h : IsName name) : endName name = name := by
  have htrim : Text.trimEnd isSpace name = name := by
    refine List.rdropWhile_eq_self_iff.2 fun hne hlast => ?_
    rw [h _ (List.getLast_mem hne)] at hlast
    simp at hlast
  rw [endName, htrim, ite_self]

/-- An end tag whose name is that of the innermost open element is read as the end of it. -/
theorem markup_closed_of_endName {name content : List Char} (hname : endName content = name)
    (hquotes : tagEnding.pass none content = some none) (tail : List Char)
    (tags : List (List Char)) (consumed : Nat) :
    ∃ consumed', markup ⟨'/' :: content ++ '>' :: tail, consumed, name :: tags⟩ =
      .ok (.closed, ⟨tail, consumed', tags⟩) := by
  have hslash : tagEnding.pass none ('/' :: content) = some none := hquotes
  have hmarkup : markup ⟨'/' :: content ++ '>' :: tail, consumed, name :: tags⟩ =
      endTag ⟨'/' :: content ++ '>' :: tail, consumed, name :: tags⟩ := rfl
  rw [hmarkup, endTag, enclosed, Ending.split_append (tagEnding_encloses_iff.2 hslash)]
  simp only [finish, behind, List.drop_one, List.tail_cons, hname, if_true]
  exact ⟨_, rfl⟩

/-- A written end tag is read as the end of the innermost open element. -/
theorem markup_closed {name : List Char} (h : IsName name)
    (hquotes : tagEnding.pass none name = some none) (tail : List Char)
    (tags : List (List Char)) (consumed : Nat) :
    ∃ consumed', markup ⟨'/' :: name ++ '>' :: tail, consumed, name :: tags⟩ =
      .ok (.closed, ⟨tail, consumed', tags⟩) :=
  markup_closed_of_endName (endName_of_isName h) hquotes tail tags consumed

/-- A written comment is read as a comment. -/
theorem markup_comment {comment : List Char} (h : ¬"-->".toList <:+: comment) (tail : List Char)
    (tags : List (List Char)) (consumed : Nat) :
    ∃ consumed', markup ⟨"!--".toList ++ comment ++ "-->".toList ++ tail, consumed, tags⟩ =
      .ok (.comment comment, ⟨tail, consumed', tags⟩) := by
  have htext : "!--".toList ++ comment ++ "-->".toList ++ tail =
      ("!--".toList ++ comment ++ "--".toList) ++ '>' :: tail := by
    simp [show "-->".toList = "--".toList ++ ['>'] from rfl]
  have hmarkup : markup ⟨"!--".toList ++ comment ++ "-->".toList ++ tail, consumed, tags⟩ =
      Reader.comment ⟨"!--".toList ++ comment ++ "-->".toList ++ tail, consumed, tags⟩ := rfl
  have hcontent : commentContent? ("!--".toList ++ comment ++ "--".toList) = some comment := by
    rw [show "!--".toList = ['!', '-', '-'] from rfl]
    simp [commentContent?]
  rw [hmarkup, htext, Reader.comment, enclosed,
    Ending.split_append (commentEnding_encloses_iff.2 h)]
  simp only [behind, hcontent]
  exact ⟨_, rfl⟩

/-! ## Texts -/

/-- The event of a text, if there is something other than white space in it. -/
def textEvents (t : List Char) : List Event :=
  if Text.trimBoth isSpace t = [] then [] else [.text (escape (Text.trimBoth isSpace t))]

/-- What is read at a place depends on what stands behind the white space there. -/
theorem events_congr {r r' : Reader} (h : r.skip = r'.skip) : r.events = r'.events := by
  have hnext : r.next = r'.next := by rw [next, next, h]
  rw [events, events, hnext]

/-- White space before markup does not change what is read. -/
theorem events_of_skipSpace_eq_nil {text : List Char} (h : skipSpace text = []) (tail : List Char)
    (consumed : Nat) (tags : List (List Char)) :
    ∃ consumed', (Reader.mk (text ++ '<' :: tail) consumed tags).events =
      (Reader.mk ('<' :: tail) consumed' tags).events := by
  have hskip : skipSpace (text ++ '<' :: tail) = '<' :: tail := by
    rw [skipSpace] at h ⊢
    rw [List.dropWhile_append, h]
    rfl
  refine ⟨(Reader.mk (text ++ '<' :: tail) consumed tags).skip.consumed, events_congr ?_⟩
  rw [skip, hskip]
  simp [skip, skipSpace, isSpace]

theorem trimBoth_eq (t : List Char) :
    Text.trimBoth isSpace t = Text.trimEnd isSpace (skipSpace t) := rfl

/-- Nothing is left of a text without its white space only if it has nothing else. -/
theorem trimBoth_eq_nil_iff {t : List Char} :
    Text.trimBoth isSpace t = [] ↔ skipSpace t = [] := by
  constructor
  · intro h
    have hall : ∀ c ∈ skipSpace t, isSpace c = true := List.rdropWhile_eq_nil_iff.1 h
    have hhead := List.head?_dropWhile_not isSpace t
    cases hskip : skipSpace t with
    | nil => rfl
    | cons c cs =>
      rw [skipSpace] at hskip
      simp only [hskip, List.head?_cons] at hhead
      simp [hall c (by rw [skipSpace, hskip]; exact List.mem_cons_self)] at hhead
  · intro h
    rw [trimBoth_eq, h]
    rfl

/-- A written text that is not blank is the next event. -/
theorem next_escape {t : List Char} (h : skipSpace t ≠ []) (tail : List Char) (consumed : Nat)
    (tags : List (List Char)) :
    ∃ consumed', (Reader.mk (escape t ++ '<' :: tail) consumed tags).next =
      .ok (some (.text (escape (Text.trimBoth isSpace t)), ⟨'<' :: tail, consumed', tags⟩)) := by
  obtain ⟨c, cs, hc⟩ := List.exists_cons_of_ne_nil (escape_ne_nil h)
  have hskip : skipSpace (escape t ++ '<' :: tail) = escape (skipSpace t) ++ '<' :: tail := by
    rw [skipSpace, List.dropWhile_append, ← skipSpace, skipSpace_escape, hc]
    rfl
  obtain ⟨htake, hdrop⟩ := span_escape (c := '<') rfl (by decide) (skipSpace t) tail
  -- An escaped text holds no `<`, so that it is not taken for markup.
  rw [next]
  split
  next hnil =>
    simp only [skip] at hnil
    rw [hskip, hc] at hnil
    simp at hnil
  next rest hmarkup =>
    simp only [skip] at hmarkup
    rw [hskip, hc] at hmarkup
    obtain rfl : c = '<' := by simpa using (List.cons.inj hmarkup).1
    exact absurd (hc ▸ List.mem_cons_self) (not_mem_escape rfl (by decide) (skipSpace t))
  next =>
    rw [text]
    simp only [skip, hskip, htake, hdrop, trimEnd_escape, ← trimBoth_eq]
    exact ⟨_, rfl⟩

/-- A written text before markup is read as that text, without the white space at its ends. -/
theorem reads_escape (t tail : List Char) (tags : List (List Char)) :
    Reads (escape t ++ '<' :: tail) tags (textEvents t) ('<' :: tail) tags := by
  intro consumed
  by_cases hblank : skipSpace t = []
  · have hskip : skipSpace (escape t) = [] := by rw [skipSpace_escape, hblank, escape_nil]
    obtain ⟨consumed', h⟩ := events_of_skipSpace_eq_nil hskip tail consumed tags
    refine ⟨consumed', ?_⟩
    rw [h, textEvents, if_pos (trimBoth_eq_nil_iff.2 hblank)]
    rfl
  · obtain ⟨consumed', h⟩ := next_escape hblank tail consumed tags
    refine ⟨consumed', ?_⟩
    rw [events_of_next h, textEvents, if_neg (mt trimBoth_eq_nil_iff.1 hblank)]

end Reader
end Xml
end IntentFirewall
