import IntentFirewall.Scan
import IntentFirewall.Text.Blank
import IntentFirewall.Xml.Entity

/-!
# Attributes

The attributes of a tag are scanned from left to right, up to the first one that is ill-formed.
What was scanned before it stays usable: a reader that stops at an earlier attribute never meets
the error.

- `scanAttributes` scans a tag's content behind the name.
- Positions count bytes from the character after `<`.
-/

namespace IntentFirewall.Xml

export Text (isSpace)

/-- Why an attribute is ill-formed. -/
inductive AttributeError
  /-- Something other than `=` follows a key. -/
  | expectedEquals (position : Nat)
  /-- Nothing follows an `=`. -/
  | expectedValue (position : Nat)
  /-- A value begins without a quote. -/
  | unquotedValue (position : Nat)
  /-- A value has no closing quote. -/
  | expectedQuote (position : Nat) (quote : Char)
  /-- A key was used before, at the position `earlier`. -/
  | duplicated (position earlier : Nat)
  /-- A value cannot be unescaped. -/
  | value (cause : EntityError)
  deriving DecidableEq, Repr

/-- The wording of an attribute error. -/
def AttributeError.message : AttributeError → String
  | .expectedEquals p => s!"position {p}: attribute key must be directly followed by `=` or space"
  | .expectedValue p => s!"position {p}: `=` must be followed by an attribute value"
  | .unquotedValue p => s!"position {p}: attribute value must be enclosed in `\"` or `'`"
  | .expectedQuote p q =>
    s!"position {p}: missing closing quote `{String.singleton q}` in attribute value"
  | .duplicated p earlier =>
    s!"position {p}: duplicated attribute, previous declaration at position {earlier}"
  | .value cause => cause.message

/-- An attribute as it is written in the tag. -/
structure RawAttribute where
  /-- Everything up to the `=` or the white space before it. -/
  key : List Char
  /-- What stands between the quotes, still escaped. -/
  value : List Char
  deriving DecidableEq, Repr

/-- The value of an attribute, unescaped. -/
def RawAttribute.text (a : RawAttribute) : Except AttributeError String :=
  match unescape a.value with
  | .ok cs => .ok (String.ofList cs)
  | .error e => .error (.value e)

/-- The key of an attribute behind its namespace, which ends at the first colon. -/
def localName (key : List Char) : List Char :=
  match key.dropWhile (· != ':') with
  | [] => key
  | _ :: name => name

/-- A key at the start of a text: what precedes the first `=` or white space, the first character
of the key being neither looked at. -/
def splitKey : List Char → List Char × List Char
  | [] => ([], [])
  | c :: cs =>
    (c :: cs.takeWhile (fun d => d != '=' && !isSpace d),
      cs.dropWhile (fun d => d != '=' && !isSpace d))

/-- White space at the start of a text is markup without meaning. -/
def skipSpace (cs : List Char) : List Char := cs.dropWhile isSpace

/-- Scans one attribute from `cs`, which begins with the first character of its key. `total` is
the position behind the tag's content, and `seen` holds the keys before this one with their
positions. The answer gives the attribute, its position and what follows it. -/
def scanAttribute (total : Nat) (seen : List (List Char × Nat)) (cs : List Char) :
    Except AttributeError (RawAttribute × Nat × List Char) :=
  let position (rest : List Char) : Nat := total - Utf8.size rest
  let key := (splitKey cs).1
  match skipSpace (splitKey cs).2 with
  | '=' :: afterEquals =>
    match seen.find? (fun k => k.1 == key) with
    | some earlier => .error (.duplicated (position cs) earlier.2)
    | none =>
      match skipSpace afterEquals with
      | [] => .error (.expectedValue total)
      | q :: afterQuote =>
        if q = '"' ∨ q = '\'' then
          match afterQuote.dropWhile (· != q) with
          | [] => .error (.expectedQuote total q)
          | _ :: rest => .ok (⟨key, afterQuote.takeWhile (· != q)⟩, position cs, rest)
        else .error (.unquotedValue (position (q :: afterQuote)))
  | rest => .error (.expectedEquals (position rest))

/-- Dropping from the front makes a list no longer. -/
theorem length_dropWhile_le {α : Type} (p : α → Bool) (l : List α) :
    (l.dropWhile p).length ≤ l.length :=
  (List.dropWhile_suffix p).length_le

/-- Skipping white space makes a text no longer. -/
theorem length_skipSpace_le (cs : List Char) : (skipSpace cs).length ≤ cs.length :=
  length_dropWhile_le _ _

/-- What follows a key is no longer than the text it was split from. -/
theorem length_splitKey_le (cs : List Char) : (splitKey cs).2.length ≤ cs.length := by
  cases cs with
  | nil => simp [splitKey]
  | cons c cs =>
    have := length_dropWhile_le (fun d => d != '=' && !isSpace d) cs
    simp only [splitKey, List.length_cons]
    omega

/-- An attribute takes at least one character. -/
theorem length_of_scanAttribute {total : Nat} {seen : List (List Char × Nat)} {cs : List Char}
    {a : RawAttribute} {p : Nat} {rest : List Char}
    (h : scanAttribute total seen cs = .ok (a, p, rest)) : rest.length < cs.length := by
  have hkey := length_splitKey_le cs
  have hskip := length_skipSpace_le (splitKey cs).2
  simp only [scanAttribute] at h
  split at h
  next afterEquals heq =>
    rw [heq, List.length_cons] at hskip
    have hvalue := length_skipSpace_le afterEquals
    split at h
    · simp at h
    · split at h
      · simp at h
      · next q afterQuote hq =>
        rw [hq, List.length_cons] at hvalue
        have hquote := length_dropWhile_le (· != q) afterQuote
        split at h
        · split at h
          · simp at h
          · next hrest =>
            rw [hrest, List.length_cons] at hquote
            simp only [Except.ok.injEq, Prod.mk.injEq] at h
            obtain ⟨-, -, rfl⟩ := h
            omega
        · simp at h
  next => simp at h

/-- Scans the attributes at the start of `cs`, given the position behind the tag's content and
the keys seen before. -/
def scanAttributesFrom (total : Nat) (seen : List (List Char × Nat)) (cs : List Char) :
    Scan AttributeError RawAttribute :=
  match _hskip : skipSpace cs with
  | [] => ⟨[], none⟩
  | c :: key =>
    match _hscan : scanAttribute total seen (c :: key) with
    | .error e => ⟨[], some e⟩
    | .ok (a, position, rest) =>
      (scanAttributesFrom total ((a.key, position) :: seen) rest).cons a
termination_by cs.length
decreasing_by
  have := length_of_scanAttribute _hscan
  have := length_skipSpace_le cs
  rw [_hskip] at this
  omega

/-- The attributes of a tag, given its content behind the `<` and without a closing slash. -/
def scanAttributes (content : List Char) : Scan AttributeError RawAttribute :=
  scanAttributesFrom (Utf8.size content) [] (content.dropWhile (!isSpace ·))

end IntentFirewall.Xml
