/-!
# Where markup ends

Every kind of markup ends at the first `>` that its own rule accepts: a tag at the first one
outside quotes, a comment at the first one behind two dashes, and so on. An `Ending` is such a
rule, told by what has to be remembered of the characters before the `>`.

- `Ending.split` cuts a text at the first accepted `>`.
- `Ending.split_eq_some` says that nothing is lost but that `>`.
-/

namespace IntentFirewall.Xml

/-- A rule that decides which `>` ends a piece of markup. -/
structure Ending (σ : Type) where
  /-- What is known before the first character. -/
  initial : σ
  /-- What is known after one more character that did not end the markup. -/
  advance : σ → Char → σ
  /-- Whether a `>` ends the markup here. -/
  closes : σ → Bool

namespace Ending

variable {σ : Type}

/-- Cuts `cs` at the first accepted `>`, given what is known so far and the characters passed,
newest first. -/
def splitFrom (e : Ending σ) : σ → List Char → List Char → Option (List Char × List Char)
  | _, _, [] => none
  | s, acc, c :: cs =>
    if c = '>' ∧ e.closes s then some (acc.reverse, cs)
    else e.splitFrom (e.advance s c) (c :: acc) cs

/-- The text before the first accepted `>` and the text behind it. -/
def split (e : Ending σ) (cs : List Char) : Option (List Char × List Char) :=
  e.splitFrom e.initial [] cs

theorem splitFrom_eq_some {e : Ending σ} {s : σ} {acc cs content rest : List Char}
    (h : e.splitFrom s acc cs = some (content, rest)) :
    acc.reverse ++ cs = content ++ '>' :: rest := by
  induction cs generalizing s acc with
  | nil => simp [splitFrom] at h
  | cons c cs ih =>
    rw [splitFrom] at h
    split at h
    next hc =>
      simp only [Option.some.injEq, Prod.mk.injEq] at h
      obtain ⟨rfl, rfl⟩ := h
      rw [hc.1]
    next =>
      rw [← ih h]
      simp

/-- A text is what precedes the accepted `>`, that `>`, and what follows. -/
theorem split_eq_some {e : Ending σ} {cs content rest : List Char}
    (h : e.split cs = some (content, rest)) : cs = content ++ '>' :: rest := by
  simpa using splitFrom_eq_some h

/-- What follows the accepted `>` is shorter than the text. -/
theorem length_of_split {e : Ending σ} {cs content rest : List Char}
    (h : e.split cs = some (content, rest)) : rest.length < cs.length := by
  rw [split_eq_some h]
  simp
  omega

end Ending

/-- A tag ends outside quotes. What is remembered is the quote that is open. -/
def tagEnding : Ending (Option Char) where
  initial := none
  advance
    | none, c => if c = '"' ∨ c = '\'' then some c else none
    | some q, c => if c = q then none else some q
  closes := Option.isNone

/-- A comment ends behind two dashes, and holds at least the two dashes of its start and the two
of its end behind the `!`. What is remembered is the number of characters and the number of
dashes at the end. -/
def commentEnding : Ending (Nat × Nat) where
  initial := (0, 0)
  advance s c := (s.1 + 1, if c = '-' then s.2 + 1 else 0)
  closes s := 5 ≤ s.1 && 2 ≤ s.2

/-- A CDATA section ends behind two closing brackets, which are counted. -/
def characterDataEnding : Ending Nat where
  initial := 0
  advance n c := if c = ']' then n + 1 else 0
  closes n := 2 ≤ n

/-- A document type ends where every inner `<` has its `>`. What is remembered is the number of
those that wait for it. -/
def doctypeEnding : Ending Nat where
  initial := 0
  advance n c := if c = '<' then n + 1 else if c = '>' then n - 1 else n
  closes n := n == 0

/-- A processing instruction ends behind a question mark. -/
def instructionEnding : Ending Bool where
  initial := false
  advance _ c := c == '?'
  closes := id

end IntentFirewall.Xml
