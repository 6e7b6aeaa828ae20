import IntentFirewall.Text.Blank
import IntentFirewall.Xml.Ending
import IntentFirewall.Xml.Event

/-!
# Reading markup

A `Reader` stands at a place in a document and knows which elements are open there. `Reader.next`
reads one event; `events` reads a whole document.

- White space at both ends of a text is no part of it, and a text of white space is no event.
- An end tag has to name the innermost open element, letter for letter.
- The end of the document is an end whether or not elements are open: that is for the consumer of
  the events to judge.
-/

namespace IntentFirewall.Xml

/-- A place in a document. -/
structure Reader where
  /-- The characters not yet read. -/
  rest : List Char
  /-- The number of bytes read. -/
  consumed : Nat
  /-- The names of the open elements, innermost first. -/
  openTags : List (List Char)
  deriving DecidableEq, Repr

namespace Reader

/-- The start of a document. A byte order mark there is neither read nor counted. -/
def ofChars : List Char → Reader
  | c :: cs => if c.toNat = 0xFEFF then ⟨cs, 0, []⟩ else ⟨c :: cs, 0, []⟩
  | [] => ⟨[], 0, []⟩

/-- The fault of a document that ends before the markup does. -/
def unfinished (r : Reader) (e : SyntaxError) : SyntaxFault := ⟨e, r.consumed + Utf8.size r.rest⟩

/-- The reader behind markup whose content has been cut off at a `>`. -/
def behind (r : Reader) (content rest : List Char) : Reader :=
  { r with rest := rest, consumed := r.consumed + Utf8.size content + 1 }

/-! ## What markup means -/

/-- The event of a start tag with the given content, and the reader behind it. -/
def start (r : Reader) (content : List Char) : Event × Reader :=
  if content.getLast? = some '/' then (.selfClosed ⟨content.dropLast⟩, r)
  else (.opened ⟨content⟩, { r with openTags := (Tag.mk content).name :: r.openTags })

/-- The name in an end tag: white space behind it does not count, unless there is nothing else. -/
def endName (content : List Char) : List Char :=
  if content.all isSpace then content else Text.trimEnd isSpace content

/-- The event of an end tag with the given content behind the slash, and the reader behind it. -/
def finish (r : Reader) (content : List Char) : Except SyntaxFault (Event × Reader) :=
  let found := endName content
  match r.openTags with
  | [] => .error ⟨.unmatchedEndTag (String.ofList found), r.consumed⟩
  | expected :: outer =>
    if found = expected then .ok (.closed, { r with openTags := outer })
    else .error ⟨.mismatchedEndTag (String.ofList expected) (String.ofList found), r.consumed⟩

/-- The content of a comment, given what stands between its angle brackets. -/
def commentContent? : List Char → Option (List Char)
  | '!' :: '-' :: '-' :: content => some (content.take (content.length - 2))
  | _ => none

/-- The content of a CDATA section, given what stands between its angle brackets. -/
def characterDataContent? : List Char → Option (List Char)
  | '!' :: '[' :: 'C' :: 'D' :: 'A' :: 'T' :: 'A' :: '[' :: content =>
    some (content.take (content.length - 2))
  | _ => none

/-- What a document type declares, given what stands between its angle brackets. -/
def doctypeContent? (markup : List Char) : Option (List Char) :=
  if (markup.take 8).map Char.toUpper = "!DOCTYPE".toList then some (markup.drop 8) else none

/-! ## Kinds of markup -/

/-- Reads markup that ends as `ending` says and whose content `event` turns into an event. -/
def enclosed {σ : Type} (r : Reader) (ending : Ending σ) (unclosed : SyntaxError)
    (event : Reader → List Char → Except SyntaxFault (Event × Reader)) :
    Except SyntaxFault (Event × Reader) :=
  match ending.split r.rest with
  | none => .error (r.unfinished unclosed)
  | some (content, rest) => event (r.behind content rest) content

/-- Reads a comment. -/
def comment (r : Reader) : Except SyntaxFault (Event × Reader) :=
  r.enclosed commentEnding .unclosedComment fun r markup =>
    match commentContent? markup with
    | some content => .ok (.comment content, r)
    | none => .error ⟨.unclosedComment, r.consumed⟩

/-- Reads a CDATA section. -/
def characterData (r : Reader) : Except SyntaxFault (Event × Reader) :=
  r.enclosed characterDataEnding .unclosedCharacterData fun r markup =>
    match characterDataContent? markup with
    | some content => .ok (.characterData content, r)
    | none => .error ⟨.unclosedCharacterData, r.consumed⟩

/-- Reads a document type. -/
def doctype (r : Reader) : Except SyntaxFault (Event × Reader) :=
  r.enclosed doctypeEnding .unclosedDoctype fun r markup =>
    match doctypeContent? markup with
    | some content =>
      if content.all isSpace then .error ⟨.missingDoctypeName, r.consumed⟩ else .ok (.ignored, r)
    | none => .error ⟨.unclosedDoctype, r.consumed⟩

/-- Reads a processing instruction or a declaration. -/
def instruction (r : Reader) : Except SyntaxFault (Event × Reader) :=
  r.enclosed instructionEnding .unclosedInstruction fun r markup =>
    if markup.length = 1 then .error ⟨.unclosedInstruction, r.consumed⟩ else .ok (.ignored, r)

/-- Reads an end tag. -/
def endTag (r : Reader) : Except SyntaxFault (Event × Reader) :=
  r.enclosed tagEnding .unclosedTag fun r markup => r.finish (markup.drop 1)

/-- Reads a start tag. -/
def startTag (r : Reader) : Except SyntaxFault (Event × Reader) :=
  r.enclosed tagEnding .unclosedTag fun r markup => .ok (r.start markup)

/-- Reads markup, the reader standing behind its `<`. -/
def markup (r : Reader) : Except SyntaxFault (Event × Reader) :=
  match r.rest with
  | '!' :: '[' :: _ => r.characterData
  | '!' :: '-' :: _ => r.comment
  | '!' :: 'D' :: _ => r.doctype
  | '!' :: 'd' :: _ => r.doctype
  | '!' :: _ => .error ⟨.unknownMarkup, r.consumed⟩
  | '?' :: _ => r.instruction
  | '/' :: _ => r.endTag
  | _ => r.startTag

/-! ## Events -/

/-- The reader at the next character that is no white space. -/
def skip (r : Reader) : Reader :=
  { r with rest := skipSpace r.rest, consumed := r.consumed + (r.rest.takeWhile isSpace).length }

/-- Reads a text, up to the next `<` or the end of the document. -/
def text (r : Reader) : Event × Reader :=
  let raw := r.rest.takeWhile (· != '<')
  (.text (Text.trimEnd isSpace raw),
    { r with rest := r.rest.dropWhile (· != '<'), consumed := r.consumed + Utf8.size raw })

/-- Reads one event, if the document has one more. -/
def next (r : Reader) : Except SyntaxFault (Option (Event × Reader)) :=
  match r.skip.rest with
  | [] => .ok none
  | '<' :: rest => (markup { r.skip with rest := rest, consumed := r.skip.consumed + 1 }).map some
  | _ => .ok (some r.skip.text)

/-! ## Every event takes something -/

/-- An event after the reader has moved on: what is left is what was behind the markup. -/
private theorem rest_of_enclosed {σ : Type} {r : Reader} {ending : Ending σ}
    {unclosed : SyntaxError} {event : Reader → List Char → Except SyntaxFault (Event × Reader)}
    {e : Event} {r' : Reader}
    (hevent : ∀ {q content}, event q content = .ok (e, r') → r'.rest = q.rest)
    (h : r.enclosed ending unclosed event = .ok (e, r')) : r'.rest.length < r.rest.length := by
  rw [enclosed] at h
  split at h
  · simp at h
  next content rest hsplit =>
    rw [hevent h]
    exact Ending.length_of_split hsplit

/-- Markup takes at least one character. -/
theorem length_of_markup {r r' : Reader} {e : Event} (h : r.markup = .ok (e, r')) :
    r'.rest.length < r.rest.length := by
  rw [markup] at h
  split at h
  · refine rest_of_enclosed (fun hq => ?_) h
    split at hq <;> simp_all
  · refine rest_of_enclosed (fun hq => ?_) h
    split at hq <;> simp_all
  · refine rest_of_enclosed (fun hq => ?_) h
    split at hq <;> try split at hq
    all_goals simp_all
  · refine rest_of_enclosed (fun hq => ?_) h
    split at hq <;> try split at hq
    all_goals simp_all
  · simp at h
  · refine rest_of_enclosed (fun hq => ?_) h
    split at hq <;> simp_all
  · refine rest_of_enclosed (fun hq => ?_) h
    rw [finish] at hq
    split at hq
    · simp at hq
    · split at hq
      · simp only [Except.ok.injEq, Prod.mk.injEq] at hq
        rw [← hq.2]
      · simp at hq
  · refine rest_of_enclosed (fun hq => ?_) h
    rw [start] at hq
    split at hq <;> simp only [Except.ok.injEq, Prod.mk.injEq] at hq <;> rw [← hq.2]

/-- Skipping white space leaves no more to read. -/
theorem length_skip_le (r : Reader) : r.skip.rest.length ≤ r.rest.length :=
  length_skipSpace_le r.rest

/-- An event takes at least one character. -/
theorem length_of_next {r r' : Reader} {e : Event} (h : r.next = .ok (some (e, r'))) :
    r'.rest.length < r.rest.length := by
  have hskip := r.length_skip_le
  rw [next] at h
  split at h
  · simp at h
  next rest hrest =>
    rw [hrest, List.length_cons] at hskip
    cases hm : markup { r.skip with rest := rest, consumed := r.skip.consumed + 1 } with
    | error f => rw [hm] at h; simp [Except.map] at h
    | ok p =>
      obtain ⟨e', q⟩ := p
      rw [hm] at h
      simp only [Except.map, Except.ok.injEq, Option.some.injEq, Prod.mk.injEq] at h
      obtain ⟨rfl, rfl⟩ := h
      have := length_of_markup hm
      simp only at this
      omega
  next hnil hlt =>
    simp only [Except.ok.injEq, Option.some.injEq] at h
    rw [text, Prod.mk.injEq] at h
    rw [← h.2]
    simp only
    cases hrest : r.skip.rest with
    | nil => exact absurd hrest hnil
    | cons c cs =>
      have hc : c ≠ '<' := fun hc => hlt cs (hc ▸ hrest)
      have := length_dropWhile_le (· != '<') cs
      rw [hrest, List.length_cons] at hskip
      simp only [List.dropWhile_cons, bne_iff_ne, ne_eq, hc, not_false_eq_true, ↓reduceIte]
      omega

/-- The events from a place to the end of the document, or to the first fault. -/
def events (r : Reader) : Scan SyntaxFault Event :=
  match _hnext : r.next with
  | .error f => ⟨[], some f⟩
  | .ok none => ⟨[], none⟩
  | .ok (some (e, r')) => (events r').cons e
termination_by r.rest.length
decreasing_by exact length_of_next _hnext

end Reader

/-- The events of a document. -/
def events (document : String) : Scan SyntaxFault Event :=
  (Reader.ofChars document.toList).events

end IntentFirewall.Xml
