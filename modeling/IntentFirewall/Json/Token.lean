import IntentFirewall.Scan
import IntentFirewall.Text.Blank
import IntentFirewall.Text.Digit
import IntentFirewall.Text.Utf8

/-!
# JSON tokens

A text is cut into the tokens of JSON up to the first one that is broken, which is the last. A
token is kept as it is written: whether a string denotes a text and a numeral a number is for the
one to judge who wants to know.

* `Token.next?` reads one token; `tokens` reads them all.
-/

namespace IntentFirewall.Json

export Text (isSpace)

open Text (digitValue?)

/-- Why a text is not the JSON that was asked for. -/
inductive Error
  /-- The grammar is broken, or a value that is kept cannot be represented. -/
  | malformed
  /-- The text ends too early. -/
  | truncated
  /-- A value is well-formed but not of the kind that was asked for. -/
  | mismatched
  deriving DecidableEq, Repr

/-- The words of JSON. -/
inductive Word
  /-- No value. -/
  | null
  /-- A set flag. -/
  | yes
  /-- A cleared flag. -/
  | no
  deriving DecidableEq, Repr

/-- A piece of a string. -/
inductive Piece
  /-- A character, written as itself or with a backslash. -/
  | char (c : Char)
  /-- A code unit of sixteen bits, written by its number. -/
  | code (n : Nat)
  deriving DecidableEq, Repr

/-- A string as it is written. -/
abbrev Literal := Scan Error Piece

/-- A numeral as it is written. -/
structure Numeral where
  /-- Whether a minus sign precedes it. -/
  negative : Bool
  /-- The digits before the point. -/
  whole : List Char
  /-- The digits behind the point, if there is one. -/
  fraction : Option (List Char)
  /-- Whether the exponent is negative, and its digits, if there is one. -/
  exponent : Option (Bool × List Char)
  deriving DecidableEq, Repr

/-- A token. -/
inductive Token
  /-- `[`. -/
  | arrayStart
  /-- `]`. -/
  | arrayEnd
  /-- The brace that opens an object. -/
  | objectStart
  /-- The brace that closes an object. -/
  | objectEnd
  /-- `,`. -/
  | comma
  /-- `:`. -/
  | colon
  /-- A word, with what is wrong behind its first letter. -/
  | word (word : Word) (failure : Option Error)
  /-- A numeral, or what is wrong with it. -/
  | numeral (numeral : Except Error Numeral)
  /-- A string. -/
  | literal (literal : Literal)
  /-- A character with which no token begins. -/
  | stray
  deriving Repr

/-! ## Words and strings -/

/-- The error of a text that does not go on as it should: it ends, or something else follows. -/
def errorAt : List Char → Error
  | [] => .truncated
  | _ :: _ => .malformed

/-- Reads the rest of a word. The answer gives what is wrong with it, and what follows. -/
def scanWord : List Char → List Char → Option Error × List Char
  | [], cs => (none, cs)
  | w :: ws, c :: cs => if w = c then scanWord ws cs else (some .malformed, [])
  | _ :: _, [] => (some .truncated, [])

/-- The code unit of four hexadecimal digits. -/
def codeOf? (a b c d : Char) : Option Nat := do
  some (((← digitValue? a) * 16 + (← digitValue? b)) * 256 +
    ((← digitValue? c) * 16 + (← digitValue? d)))

/-- The character behind a backslash. -/
def escaped? : Char → Option Char
  | '"' => some '"'
  | '\\' => some '\\'
  | '/' => some '/'
  | 'b' => some '\x08'
  | 'f' => some '\x0c'
  | 'n' => some '\n'
  | 'r' => some '\r'
  | 't' => some '\t'
  | _ => none

/-- Reads a string behind its opening quote, given the pieces already read, newest first. -/
def scanString (acc : List Piece) : List Char → Literal × List Char
  | [] => (⟨acc.reverse, some .truncated⟩, [])
  | '"' :: cs => (⟨acc.reverse, none⟩, cs)
  | '\\' :: 'u' :: a :: b :: c :: d :: cs =>
    match codeOf? a b c d with
    | some n => scanString (.code n :: acc) cs
    | none => (⟨acc.reverse, some .malformed⟩, [])
  | '\\' :: 'u' :: cs =>
    -- Four bytes are read before they are looked at.
    (⟨acc.reverse, some (if Utf8.size cs < 4 then .truncated else .malformed)⟩, [])
  | '\\' :: c :: cs =>
    match escaped? c with
    | some d => scanString (.char d :: acc) cs
    | none => (⟨acc.reverse, some .malformed⟩, [])
  | ['\\'] => (⟨acc.reverse, some .truncated⟩, [])
  | c :: cs =>
    if c.toNat < 0x20 then (⟨acc.reverse, some .malformed⟩, [])
    else scanString (.char c :: acc) cs

/-! ## Numerals -/

/-- The digits at the start of a text, and what follows them. -/
def spanDigits (cs : List Char) : List Char × List Char :=
  (cs.takeWhile Char.isDigit, cs.dropWhile Char.isDigit)

/-- Reads the digits before the point. A zero stands alone. -/
def scanWhole (cs : List Char) : Except Error (List Char × List Char) :=
  match spanDigits cs with
  | ([], rest) => .error (errorAt rest)
  | (['0'], rest) => .ok (['0'], rest)
  | ('0' :: _, _) => .error .malformed
  | (digits, rest) => .ok (digits, rest)

/-- Reads a point and the digits behind it, if there is one. -/
def scanFraction : List Char → Except Error (Option (List Char) × List Char)
  | '.' :: cs =>
    match spanDigits cs with
    | ([], rest) => .error (errorAt rest)
    | (digits, rest) => .ok (some digits, rest)
  | cs => .ok (none, cs)

/-- Reads a sign. -/
def scanSign : List Char → Bool × List Char
  | '-' :: cs => (true, cs)
  | '+' :: cs => (false, cs)
  | cs => (false, cs)

/-- Reads an exponent, if there is one. -/
def scanExponent (cs : List Char) : Except Error (Option (Bool × List Char) × List Char) :=
  match cs with
  | [] => .ok (none, [])
  | c :: rest =>
    if c = 'e' ∨ c = 'E' then
      match spanDigits (scanSign rest).2 with
      | ([], behind) => .error (errorAt behind)
      | (digits, behind) => .ok (some ((scanSign rest).1, digits), behind)
    else .ok (none, cs)

/-- Reads a numeral behind its sign. -/
def scanNumeral (negative : Bool) (cs : List Char) : Except Error (Numeral × List Char) := do
  let (whole, cs) ← scanWhole cs
  let (fraction, cs) ← scanFraction cs
  let (exponent, cs) ← scanExponent cs
  .ok (⟨negative, whole, fraction, exponent⟩, cs)

/-- The token of a numeral and what follows it. -/
def numeralToken (negative : Bool) (cs : List Char) : Token × List Char :=
  match scanNumeral negative cs with
  | .ok (n, rest) => (.numeral (.ok n), rest)
  | .error e => (.numeral (.error e), [])

/-- The token of a word and what follows it, given the rest of its letters. -/
def wordToken (word : Word) (letters : String) (cs : List Char) : Token × List Char :=
  let (failure, rest) := scanWord letters.toList cs
  (.word word failure, rest)

/-! ## One token -/

/-- The token that begins with `c`, and what follows it. Nothing follows a broken one. -/
def tokenFrom (c : Char) (cs : List Char) : Token × List Char :=
  match c with
  | '[' => (.arrayStart, cs)
  | ']' => (.arrayEnd, cs)
  | '\x7b' => (.objectStart, cs)
  | '\x7d' => (.objectEnd, cs)
  | ',' => (.comma, cs)
  | ':' => (.colon, cs)
  | '"' => (.literal (scanString [] cs).1, (scanString [] cs).2)
  | 'n' => wordToken .null "ull" cs
  | 't' => wordToken .yes "rue" cs
  | 'f' => wordToken .no "alse" cs
  | '-' => numeralToken true cs
  | c => if c.isDigit then numeralToken false (c :: cs) else (.stray, [])

/-! ## What a token leaves -/

/-- A word leaves nothing that was not behind its first letter. -/
theorem length_scanWord_le (ws cs : List Char) : (scanWord ws cs).2.length ≤ cs.length := by
  induction ws generalizing cs with
  | nil => simp [scanWord]
  | cons w ws ih =>
    cases cs with
    | nil => simp [scanWord]
    | cons c cs =>
      have := ih cs
      rw [scanWord]
      split
      · simp only [List.length_cons]
        omega
      · simp

/-- A string leaves nothing that was not behind its opening quote. -/
theorem length_scanString_le (acc : List Piece) (cs : List Char) :
    (scanString acc cs).2.length ≤ cs.length := by
  fun_induction scanString acc cs <;> simp_all <;> omega

/-- Dropping digits leaves no more than there was. -/
theorem length_spanDigits_le (cs : List Char) : (spanDigits cs).2.length ≤ cs.length :=
  (List.dropWhile_suffix _).length_le

/-- A whole number has at least one digit. -/
theorem length_of_scanWhole {cs digits rest : List Char} (h : scanWhole cs = .ok (digits, rest)) :
    rest.length < cs.length := by
  have hsplit : (spanDigits cs).1 ++ (spanDigits cs).2 = cs := List.takeWhile_append_dropWhile
  have hlength := congrArg List.length hsplit
  rw [List.length_append] at hlength
  rw [scanWhole] at h
  split at h
  · simp at h
  next heq =>
    simp only [Except.ok.injEq, Prod.mk.injEq] at h
    simp only [heq, List.length_singleton] at hlength
    rw [← h.2]
    omega
  · simp at h
  next hnil _ _ heq =>
    simp only [Except.ok.injEq, Prod.mk.injEq] at h
    have := List.length_pos_iff.2 hnil
    simp only [heq] at hlength
    rw [← h.2]
    omega

/-- A fraction leaves no more than there was. -/
theorem length_of_scanFraction {cs rest : List Char} {digits : Option (List Char)}
    (h : scanFraction cs = .ok (digits, rest)) : rest.length ≤ cs.length := by
  rw [scanFraction.eq_def] at h
  split at h
  next cs =>
    have hspan := length_spanDigits_le cs
    split at h
    · simp at h
    next heq =>
      simp only [Except.ok.injEq, Prod.mk.injEq] at h
      rw [heq] at hspan
      rw [← h.2, List.length_cons]
      simp only at hspan
      omega
  next =>
    simp only [Except.ok.injEq, Prod.mk.injEq] at h
    exact Nat.le_of_eq (by rw [h.2])

/-- A sign leaves no more than there was. -/
theorem length_scanSign_le (cs : List Char) : (scanSign cs).2.length ≤ cs.length := by
  rw [scanSign.eq_def]
  split <;> simp

/-- An exponent leaves no more than there was. -/
theorem length_of_scanExponent {cs rest : List Char} {exponent : Option (Bool × List Char)}
    (h : scanExponent cs = .ok (exponent, rest)) : rest.length ≤ cs.length := by
  rw [scanExponent.eq_def] at h
  split at h
  · simp_all
  next c tail =>
    split at h
    · have hsign := length_scanSign_le tail
      have hspan := length_spanDigits_le (scanSign tail).2
      split at h
      · simp at h
      next heq =>
        simp only [Except.ok.injEq, Prod.mk.injEq] at h
        simp only [heq] at hspan
        rw [← h.2, List.length_cons]
        omega
    · simp only [Except.ok.injEq, Prod.mk.injEq] at h
      exact Nat.le_of_eq (by rw [← h.2])

/-- A numeral has at least one digit behind its sign. -/
theorem length_of_scanNumeral {negative : Bool} {cs rest : List Char} {n : Numeral}
    (h : scanNumeral negative cs = .ok (n, rest)) : rest.length < cs.length := by
  rw [scanNumeral] at h
  cases hwhole : scanWhole cs with
  | error e => simp [hwhole, bind, Except.bind] at h
  | ok whole =>
    cases hfraction : scanFraction whole.2 with
    | error e => simp [hwhole, hfraction, bind, Except.bind] at h
    | ok fraction =>
      cases hexponent : scanExponent fraction.2 with
      | error e => simp [hwhole, hfraction, hexponent, bind, Except.bind] at h
      | ok exponent =>
        simp only [hwhole, hfraction, hexponent, bind, Except.bind, Except.ok.injEq,
          Prod.mk.injEq] at h
        have h₁ := length_of_scanWhole hwhole
        have h₂ := length_of_scanFraction hfraction
        have h₃ := length_of_scanExponent hexponent
        rw [← h.2]
        omega

/-- A numeral leaves less than there was, unless nothing was there. -/
theorem length_numeralToken (negative : Bool) (cs : List Char) :
    (numeralToken negative cs).2.length < cs.length ∨ (numeralToken negative cs).2 = [] := by
  rw [numeralToken]
  split
  next h => exact .inl (length_of_scanNumeral h)
  · exact .inr rfl

/-- A numeral leaves no more than what is behind its first digit. -/
theorem length_numeralToken_cons_le (negative : Bool) (c : Char) (cs : List Char) :
    (numeralToken negative (c :: cs)).2.length ≤ cs.length := by
  rcases length_numeralToken negative (c :: cs) with h | h
  · rw [List.length_cons] at h
    omega
  · simp [h]

/-- What follows a token is shorter than the text that begins with it. -/
theorem length_tokenFrom_le (c : Char) (cs : List Char) :
    (tokenFrom c cs).2.length ≤ cs.length := by
  rw [tokenFrom.eq_def]
  split
  all_goals try exact Nat.le_refl _
  · exact length_scanString_le [] cs
  · exact length_scanWord_le _ cs
  · exact length_scanWord_le _ cs
  · exact length_scanWord_le _ cs
  · rcases length_numeralToken true cs with h | h
    · omega
    · simp [h]
  · split
    · exact length_numeralToken_cons_le _ _ _
    · simp

/-! ## All tokens -/

/-- The tokens of a text. -/
def tokens (cs : List Char) : List Token :=
  match _hskip : cs.dropWhile isSpace with
  | [] => []
  | c :: rest => (tokenFrom c rest).1 :: tokens (tokenFrom c rest).2
termination_by cs.length
decreasing_by
  have h₁ := length_tokenFrom_le c rest
  have h₂ := (List.dropWhile_suffix (l := cs) isSpace).length_le
  rw [_hskip, List.length_cons] at h₂
  omega

end IntentFirewall.Json
