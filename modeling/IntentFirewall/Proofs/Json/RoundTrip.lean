import IntentFirewall.Json.Decode
import IntentFirewall.Json.Printer
import Mathlib.Data.List.Basic

/-!
# Reading what has been written

A value that has been written in either layout is read as the tree of what is in it. The white space
of the layout and the escapes in strings leave no trace.

* `scanString_quote`, `readLiteral_literalOf`: a text is written as a string that denotes it.
* `numeralToken_toDigits`: a number is written as a numeral of its digits.
* `Value.tree`: a value as it is written, and `Value.pushAll_print`: it is read where one is due,
  whatever stands around it. `Value.read_print` is the case in which nothing does.
* `decode_print`: so a text is decoded as the tree of the value in it. What the common decoders make
  of such trees follows.
-/

namespace IntentFirewall.Json

open Text (digitValue? digitValue?_hexDigit hexDigit)

/-! ## Strings -/

/-- A control character that has no escape of its own. -/
def isNumbered (c : Char) : Bool :=
  c.toNat < 0x20 && !(['\x08', '\x0c', '\n', '\r', '\t'].contains c)

/-- The piece of a string as which a character is written. -/
def pieceOf (c : Char) : Piece := if isNumbered c then .code c.toNat else .char c

theorem codeOf?_hexDigit {n : Nat} (h : n < 0x20) :
    codeOf? '0' '0' (hexDigit (n / 16)) (hexDigit (n % 16)) = some n := by
  have hzero : digitValue? '0' = some 0 := rfl
  simp only [codeOf?, hzero, digitValue?_hexDigit (by omega : n / 16 < 16),
    digitValue?_hexDigit (Nat.mod_lt n (by decide)), bind, Option.bind, Option.some.injEq]
  omega

theorem scanString_of_plain {c : Char} (hquote : c ≠ '"') (hbackslash : c ≠ '\\')
    (hcontrol : ¬c.toNat < 0x20) (acc : List Piece) (cs : List Char) :
    scanString acc (c :: cs) = scanString (.char c :: acc) cs := by
  rw [scanString.eq_def]
  split
  case h_7 heq =>
    obtain ⟨rfl, rfl⟩ := List.cons.inj heq
    rw [if_neg hcontrol]
  all_goals simp_all

/-- A character that has been written is read as its piece. -/
theorem scanString_quoteChar (c : Char) (acc : List Piece) (cs : List Char) :
    scanString acc (quoteChar c ++ cs) = scanString (pieceOf c :: acc) cs := by
  unfold quoteChar
  -- A character with an escape of its own is read back by computation, which leaves the last case.
  split
  case h_8 _ hquote hbackslash hb hf hn hr ht =>
    split
    next hcontrol =>
      have hnumbered : isNumbered c = true := by
        simp_all [isNumbered]
      rw [pieceOf, if_pos hnumbered]
      simp only [List.cons_append, List.nil_append]
      rw [scanString, codeOf?_hexDigit hcontrol]
    next hcontrol =>
      have hnumbered : isNumbered c = false := by
        simp [isNumbered, hcontrol]
      rw [pieceOf, hnumbered]
      exact scanString_of_plain hquote hbackslash hcontrol acc cs
  all_goals rfl

/-- A text as it is written. -/
def literalOf (s : String) : Literal := ⟨s.toList.map pieceOf, none⟩

/-- A string ends at the quotation mark behind the text, however many of them are in it. -/
theorem scanString_quote (s : String) (rest : List Char) :
    scanString [] (s.toList.flatMap quoteChar ++ '"' :: rest) = (literalOf s, rest) := by
  have hall (cs : List Char) (acc : List Piece) :
      scanString acc (cs.flatMap quoteChar ++ '"' :: rest) =
        (⟨acc.reverse ++ cs.map pieceOf, none⟩, rest) := by
    induction cs generalizing acc with
    | nil => simp [scanString]
    | cons c cs ih =>
      rw [List.flatMap_cons, List.append_assoc, scanString_quoteChar, ih]
      simp
  exact hall s.toList []

/-- The text that is read is the one that has been written. -/
theorem readLiteral_literalOf (s : String) : readLiteral (literalOf s) = .ok s := by
  have hall (cs acc : List Char) :
      readPieces none acc (cs.map pieceOf) = .ok (String.ofList (acc.reverse ++ cs)) := by
    induction cs generalizing acc with
    | nil => simp [readPieces]
    | cons c cs ih =>
      rw [List.map_cons, pieceOf]
      split
      next hnumbered =>
        -- A control character is no half of a pair.
        have hcontrol : c.toNat < 0x20 := by
          simp only [isNumbered, Bool.and_eq_true, decide_eq_true_eq] at hnumbered
          exact hnumbered.1
        have htrailing : isTrailing c.toNat = false := by
          simp only [isTrailing, Bool.and_eq_false_iff, decide_eq_false_iff_not]
          omega
        have hleading : isLeading c.toNat = false := by
          simp only [isLeading, Bool.and_eq_false_iff, decide_eq_false_iff_not]
          omega
        rw [readPieces.eq_def]
        simp [htrailing, hleading, ih]
      next => rw [readPieces, ih]; simp
  rw [readLiteral, literalOf]
  simpa using hall s.toList []

/-! ## Numerals -/

theorem isDigit_of_mem_toDigits {c : Char} {n : Nat} (h : c ∈ Nat.toDigits 10 n) :
    c.isDigit = true :=
  Nat.isDigit_of_mem_toDigits (by decide) (by decide) h

/-- Only zero is written with a zero in front. -/
theorem eq_zero_of_head?_toDigits {n : Nat} (h : (Nat.toDigits 10 n).head? = some '0') : n = 0 := by
  -- The first digit of a longer number is that of its tenth.
  induction n using Nat.strongRecOn with
  | ind n ih =>
    by_cases hn : n < 10
    · rw [Nat.toDigits_of_lt_base hn, List.head?_cons, Option.some.injEq] at h
      have hdigit : ∀ n < 10, Nat.digitChar n = '0' → n = 0 := by decide
      exact hdigit n hn h
    · rw [Nat.toDigits_of_base_le (by decide) (Nat.le_of_not_lt hn),
        List.head?_append, Option.or_of_isSome (by simp [Nat.toDigits_ne_nil])] at h
      have hrest := ih (n / 10) (by omega) h
      omega

/-- A text with which no numeral goes on. -/
def EndsNumeral (cs : List Char) : Prop :=
  ∀ c ∈ cs.head?, c.isDigit = false ∧ c ≠ '.' ∧ c ≠ 'e' ∧ c ≠ 'E'

theorem endsNumeral_of_mem {c : Char} (hc : c ∈ [',', ']', '\x7d']) (cs : List Char) :
    EndsNumeral (c :: cs) := by
  intro d hd
  obtain rfl := Option.some.inj hd
  simp only [List.mem_cons, List.not_mem_nil, or_false] at hc
  rcases hc with rfl | rfl | rfl <;> decide

theorem scanWhole_toDigits (n : Nat) {rest : List Char} (hrest : EndsNumeral rest) :
    scanWhole (Nat.toDigits 10 n ++ rest) = .ok (Nat.toDigits 10 n, rest) := by
  have hdigits : ∀ c ∈ Nat.toDigits 10 n, c.isDigit = true := fun _ => isDigit_of_mem_toDigits
  have hend : rest.takeWhile Char.isDigit = [] ∧ rest.dropWhile Char.isDigit = rest := by
    cases rest with
    | nil => exact ⟨rfl, rfl⟩
    | cons c cs =>
      have hc := (hrest c rfl).1
      simp [hc]
  have hspan : spanDigits (Nat.toDigits 10 n ++ rest) = (Nat.toDigits 10 n, rest) := by
    rw [spanDigits, List.takeWhile_append_of_pos hdigits, List.dropWhile_append_of_pos hdigits,
      hend.1, hend.2, List.append_nil]
  rw [scanWhole, hspan]
  split
  next heq => exact absurd (congrArg Prod.fst heq) Nat.toDigits_ne_nil
  next heq => rw [← heq]
  next hsingle heq =>
    -- A number with a zero in front of other digits would be zero.
    obtain ⟨hfirst, rfl⟩ := Prod.mk.inj heq
    obtain rfl := eq_zero_of_head?_toDigits (by rw [hfirst]; rfl)
    exact (hsingle (List.cons.inj hfirst).2.symm).elim
  next heq => rw [← heq]

/-- The digits of a number are read as the numeral of it. -/
theorem numeralToken_toDigits (n : Nat) {rest : List Char} (hrest : EndsNumeral rest) :
    numeralToken false (Nat.toDigits 10 n ++ rest) = (.numeral (.ok (.ofNat n)), rest) := by
  have hfraction : scanFraction rest = .ok (none, rest) := by
    rw [scanFraction.eq_def]
    split
    next cs => exact absurd rfl (hrest '.' rfl).2.1
    next => rfl
  have hexponent : scanExponent rest = .ok (none, rest) := by
    rw [scanExponent.eq_def]
    split
    next => rfl
    next c cs =>
      obtain ⟨-, -, hsmall, hlarge⟩ := hrest c rfl
      rw [if_neg (not_or.2 ⟨hsmall, hlarge⟩)]
  rw [numeralToken, scanNumeral, scanWhole_toDigits n hrest]
  simp only [bind, Except.bind, hfraction, hexponent]
  rfl

/-! ## Tokens -/

@[simp]
theorem tokens_nil : tokens [] = [] := by
  rw [tokens]
  rfl

theorem tokens_cons {c : Char} (hc : isSpace c = false) (cs : List Char) :
    tokens (c :: cs) = (tokenFrom c cs).1 :: tokens (tokenFrom c cs).2 := by
  have hskip : (c :: cs).dropWhile isSpace = c :: cs := by
    rw [List.dropWhile_cons, hc]
    rfl
  rw [tokens]
  split
  next heq => rw [hskip] at heq; cases heq
  next heq => rw [hskip] at heq; cases heq; rfl

/-- White space in front of a token does not matter. -/
theorem tokens_append_of_space {space : List Char} (hspace : ∀ c ∈ space, isSpace c = true)
    (cs : List Char) : tokens (space ++ cs) = tokens cs := by
  -- The recursion is not on the text, so both sides are opened to the text that they skip to.
  have hskip : (space ++ cs).dropWhile isSpace = cs.dropWhile isSpace :=
    List.dropWhile_append_of_pos hspace
  rw [tokens, tokens]
  split
  next h₁ =>
    rw [hskip] at h₁
    split
    next => rfl
    next h₂ => rw [h₁] at h₂; cases h₂
  next h₁ =>
    rw [hskip] at h₁
    split
    next h₂ => rw [h₁] at h₂; cases h₂
    next h₂ => rw [h₁] at h₂; cases h₂; rfl

theorem tokenFrom_of_isDigit {c : Char} (hc : c.isDigit = true) (cs : List Char) :
    tokenFrom c cs = numeralToken false (c :: cs) := by
  rw [tokenFrom.eq_def]
  split
  case h_12 => rw [if_pos hc]
  all_goals exact absurd hc (by decide)

theorem isSpace_of_isDigit {c : Char} (hc : c.isDigit = true) : isSpace c = false := by
  rw [Bool.eq_false_iff, isSpace]
  intro h
  simp only [Bool.or_eq_true, beq_iff_eq] at h
  rcases h with ((rfl | rfl) | rfl) | rfl <;> exact absurd hc (by decide)

theorem tokens_toDigits (n : Nat) {rest : List Char} (hrest : EndsNumeral rest) :
    tokens (Nat.toDigits 10 n ++ rest) = .numeral (.ok (.ofNat n)) :: tokens rest := by
  have htoken := numeralToken_toDigits n hrest
  obtain ⟨c, cs, hcs⟩ := List.exists_cons_of_ne_nil (Nat.toDigits_ne_nil (b := 10) (n := n))
  have hc : c.isDigit = true := isDigit_of_mem_toDigits (hcs ▸ List.mem_cons_self)
  rw [hcs] at htoken ⊢
  rw [List.cons_append, tokens_cons (isSpace_of_isDigit hc), tokenFrom_of_isDigit hc]
  rw [List.cons_append] at htoken
  rw [htoken]

theorem tokens_quote (s : String) (rest : List Char) :
    tokens (quote s ++ rest) = .literal (literalOf s) :: tokens rest := by
  have hquote : quote s ++ rest = '"' :: (s.toList.flatMap quoteChar ++ '"' :: rest) := by
    simp [quote]
  rw [hquote, tokens_cons rfl]
  simp only [tokenFrom, scanString_quote]

/-! ## Layouts -/

namespace Layout

theorem tokens_lineStart (l : Layout) (cs : List Char) :
    tokens (l.lineStart ++ cs) = tokens cs := by
  cases l with
  | compact => rfl
  | lines depth =>
    refine tokens_append_of_space (List.forall_mem_cons.2 ⟨rfl, fun c hc => ?_⟩) cs
    rw [List.eq_of_mem_replicate hc]
    rfl

theorem tokens_colon (l : Layout) (cs : List Char) :
    tokens (l.colon ++ cs) = .colon :: tokens cs := by
  cases l with
  | compact => exact tokens_cons rfl cs
  | lines depth =>
    -- Here a blank comes behind the colon.
    have hspace : tokens ([' '] ++ cs) = tokens cs :=
      tokens_append_of_space (List.forall_mem_singleton.2 rfl) cs
    rw [← hspace]
    exact tokens_cons rfl (' ' :: cs)

theorem endsNumeral_lineStart (l : Layout) {cs : List Char} (h : EndsNumeral cs) :
    EndsNumeral (l.lineStart ++ cs) := by
  cases l with
  | compact => exact h
  | lines depth =>
    intro d hd
    obtain rfl := Option.some.inj hd
    decide

/-- Texts between brackets, each behind the first one with a comma before it. -/
theorem enclose_cons (l : Layout) (first last : Char) (text : List Char)
    (texts : List (List Char)) :
    l.enclose first last (text :: texts) =
      first :: (l.inner.lineStart ++ (text ++
        ((texts.flatMap fun t => ',' :: (l.inner.lineStart ++ t)) ++
          (l.lineStart ++ [last])))) := by
  have hcommas (t : List Char) (ts : List (List Char)) :
      [','].intercalate (t :: ts) = t ++ ts.flatMap (',' :: ·) := by
    induction ts generalizing t with
    | nil => simp
    | cons u us ih => rw [List.intercalate_cons_cons, ih]; simp
  unfold enclose
  dsimp only
  rw [List.map_cons, hcommas, List.flatMap_map]
  simp

end Layout

/-! ## Trees -/

namespace Value

mutual

/-- A value as it is written. -/
def tree : Value → Tree
  | null => .word .null none
  | flag b => .word (if b then .yes else .no) none
  | count n => .numeral (.ok (.ofNat n))
  | text s => .literal (literalOf s)
  | array items => .array (treeItems items)
  | object members => .object (treeMembers members)

/-- The values of an array as they are written. -/
def treeItems : List Value → Items
  | [] => .stop none
  | value :: rest => .item value.tree (treeItems rest)

/-- The members of an object as they are written. -/
def treeMembers : List (String × Value) → Members
  | [] => .stop none
  | (key, value) :: rest => .member (literalOf key) value.tree (treeMembers rest)

end

end Value

/-- A token with which a value begins. -/
def Token.BeginsValue (t : Token) : Prop := ∀ stack, (Due.pushValue? stack t).isSome = true

namespace Due

variable {d next : Due} {t : Token}

theorem pushAll_cons (h : d.push t = .ok next) (ts : List Token) :
    d.pushAll (t :: ts) = next.pushAll ts := by
  rw [pushAll, h]

/-- The first value of an array is taken as any other. -/
theorem pushAll_firstItem (h : t.BeginsValue) (stack : List Frame) (ts : List Token) :
    (firstItem stack).pushAll (t :: ts) = (value (.array [] :: stack)).pushAll (t :: ts) := by
  obtain ⟨next, hnext⟩ := Option.isSome_iff_exists.1 (h (.array [] :: stack))
  have hfirst : (firstItem stack).push t = .ok next := by
    cases t with
    | arrayEnd => cases hnext
    | _ => simp [push, hnext]
  have hvalue : (value (.array [] :: stack)).push t = .ok next := by
    simp [push, hnext]
  rw [pushAll_cons hfirst, pushAll_cons hvalue]

end Due

namespace Value

/-- A value begins with a token of its own. -/
theorem exists_tokens_print (v : Value) (l : Layout) (rest : List Char) :
    ∃ t ts, tokens (v.print l ++ rest) = t :: ts ∧ t.BeginsValue := by
  have hfrom {c : Char} (cs : List Char) (hc : isSpace c = false)
      (ht : (tokenFrom c cs).1.BeginsValue) :
      ∃ t ts, tokens (c :: cs) = t :: ts ∧ t.BeginsValue := ⟨_, _, tokens_cons hc cs, ht⟩
  cases v with
  | null => exact hfrom _ rfl fun _ => rfl
  | flag b => cases b <;> exact hfrom _ rfl fun _ => rfl
  | count n =>
    -- Whatever comes behind its first digit, a numeral begins a value, be it a wrong one.
    obtain ⟨c, cs, hcs⟩ := List.exists_cons_of_ne_nil (Nat.toDigits_ne_nil (b := 10) (n := n))
    have hc : c.isDigit = true := isDigit_of_mem_toDigits (hcs ▸ List.mem_cons_self)
    rw [print, hcs]
    refine hfrom _ (isSpace_of_isDigit hc) fun stack => ?_
    rw [tokenFrom_of_isDigit hc, numeralToken]
    split <;> rfl
  | text s => exact hfrom _ rfl fun _ => rfl
  | array items =>
    rw [print]
    cases hitems : printItems l.inner items with
    | nil => exact hfrom _ rfl fun _ => rfl
    | cons t ts =>
      rw [Layout.enclose_cons]
      exact hfrom _ rfl fun _ => rfl
  | object members =>
    rw [print]
    cases hmembers : printMembers l.inner members with
    | nil => exact hfrom _ rfl fun _ => rfl
    | cons t ts =>
      rw [Layout.enclose_cons]
      exact hfrom _ rfl fun _ => rfl

/-- No numeral goes on behind a value in an array or in an object. -/
theorem endsNumeral_items (l : Layout) (texts : List (List Char)) {rest : List Char}
    (hrest : EndsNumeral rest) :
    EndsNumeral ((texts.flatMap fun t => ',' :: (l.lineStart ++ t)) ++ rest) := by
  cases texts with
  | nil => exact hrest
  | cons t ts => exact endsNumeral_of_mem (by decide) _

-- What follows a value is the remainder of all that it stands in, so the induction along the value
-- is for every text behind it and for every stack of what has been begun before it.

mutual

/-- Where a value is due, one that has been printed is read. -/
theorem pushAll_print (v : Value) (l : Layout) (stack : List Frame) {rest : List Char}
    (hrest : EndsNumeral rest) : (Due.value stack).pushAll (tokens (v.print l ++ rest)) =
      (Due.behind v.tree stack).pushAll (tokens rest) := by
  match v with
  | null =>
    have htokens : tokens ("null".toList ++ rest) = .word .null none :: tokens rest :=
      tokens_cons rfl _
    rw [print, htokens]
    exact Due.pushAll_cons rfl _
  | flag true =>
    have htokens : tokens ("true".toList ++ rest) = .word .yes none :: tokens rest :=
      tokens_cons rfl _
    change (Due.value stack).pushAll (tokens ("true".toList ++ rest)) = _
    rw [htokens]
    exact Due.pushAll_cons rfl _
  | flag false =>
    have htokens : tokens ("false".toList ++ rest) = .word .no none :: tokens rest :=
      tokens_cons rfl _
    change (Due.value stack).pushAll (tokens ("false".toList ++ rest)) = _
    rw [htokens]
    exact Due.pushAll_cons rfl _
  | count n =>
    rw [print, tokens_toDigits n hrest]
    exact Due.pushAll_cons rfl _
  | text s =>
    rw [print, tokens_quote]
    exact Due.pushAll_cons rfl _
  | array [] =>
    have htokens : tokens ('[' :: ']' :: rest) = .arrayStart :: .arrayEnd :: tokens rest := by
      rw [tokens_cons rfl, tokenFrom, tokens_cons rfl, tokenFrom]
    change (Due.value stack).pushAll (tokens ('[' :: ']' :: rest)) = _
    rw [htokens, Due.pushAll_cons rfl, Due.pushAll_cons rfl]
    rfl
  | array (first :: items) =>
    have hstart (cs : List Char) : tokens ('[' :: cs) = .arrayStart :: tokens cs :=
      tokens_cons rfl cs
    have hbehind := endsNumeral_items l.inner (printItems l.inner items)
      (l.endsNumeral_lineStart (endsNumeral_of_mem (c := ']') (by decide) rest))
    -- At the first value the array could still be empty. The token that is there decides this.
    obtain ⟨t, ts, htokens, ht⟩ := exists_tokens_print first l.inner
      ((printItems l.inner items).flatMap (fun t => ',' :: (l.inner.lineStart ++ t)) ++
          (l.lineStart ++ ']' :: rest))
    rw [print, printItems, Layout.enclose_cons]
    simp only [List.cons_append, List.append_assoc, List.nil_append]
    rw [hstart, Due.pushAll_cons rfl, Layout.tokens_lineStart, htokens, Due.pushAll_firstItem ht,
      ← htokens, pushAll_print first l.inner _ hbehind]
    exact pushAll_printItems items l.inner l stack [first.tree] rest
  | object [] =>
    have htokens : tokens ('\x7b' :: '\x7d' :: rest) =
        .objectStart :: .objectEnd :: tokens rest := by
      rw [tokens_cons rfl, tokenFrom, tokens_cons rfl, tokenFrom]
    change (Due.value stack).pushAll (tokens ('\x7b' :: '\x7d' :: rest)) = _
    rw [htokens, Due.pushAll_cons rfl, Due.pushAll_cons rfl]
    rfl
  | object ((key, first) :: members) =>
    have hstart (cs : List Char) : tokens ('\x7b' :: cs) = .objectStart :: tokens cs :=
      tokens_cons rfl cs
    have hbehind := endsNumeral_items l.inner (printMembers l.inner members)
      (l.endsNumeral_lineStart (endsNumeral_of_mem (c := '\x7d') (by decide) rest))
    rw [print, printMembers, Layout.enclose_cons]
    simp only [List.cons_append, List.append_assoc, List.nil_append]
    rw [hstart, Due.pushAll_cons rfl, Layout.tokens_lineStart, tokens_quote, Due.pushAll_cons rfl,
      Layout.tokens_colon, Due.pushAll_cons rfl, pushAll_print first l.inner _ hbehind]
    exact pushAll_printMembers members l.inner l stack [(literalOf key, first.tree)] rest

/-- Behind some values of an array, the others are read. -/
theorem pushAll_printItems (items : List Value) (l close : Layout) (stack : List Frame)
    (values : List Tree) (rest : List Char) :
    (Due.nextItem stack values).pushAll
        (tokens (((printItems l items).flatMap fun t => ',' :: (l.lineStart ++ t)) ++
          (close.lineStart ++ ']' :: rest))) =
      (Due.behind (.array (.pushAll values (treeItems items))) stack).pushAll (tokens rest) := by
  match items with
  | [] =>
    rw [printItems, List.flatMap_nil, List.nil_append, Layout.tokens_lineStart, tokens_cons rfl,
      tokenFrom]
    exact Due.pushAll_cons rfl _
  | value :: items =>
    have hcomma (cs : List Char) : tokens (',' :: cs) = .comma :: tokens cs := tokens_cons rfl cs
    have hbehind := endsNumeral_items l (printItems l items)
      (close.endsNumeral_lineStart (endsNumeral_of_mem (c := ']') (by decide) rest))
    rw [printItems, List.flatMap_cons]
    simp only [List.cons_append, List.append_assoc]
    rw [hcomma, Due.pushAll_cons rfl, Layout.tokens_lineStart, pushAll_print value l _ hbehind]
    exact pushAll_printItems items l close stack (value.tree :: values) rest

/-- Behind some members of an object, the others are read. -/
theorem pushAll_printMembers (members : List (String × Value)) (l close : Layout)
    (stack : List Frame) (pairs : List (Literal × Tree)) (rest : List Char) :
    (Due.nextMember stack pairs).pushAll
        (tokens (((printMembers l members).flatMap fun t => ',' :: (l.lineStart ++ t)) ++
          (close.lineStart ++ '\x7d' :: rest))) =
      (Due.behind (.object (.pushAll pairs (treeMembers members))) stack).pushAll
        (tokens rest) := by
  match members with
  | [] =>
    rw [printMembers, List.flatMap_nil, List.nil_append, Layout.tokens_lineStart, tokens_cons rfl,
      tokenFrom]
    exact Due.pushAll_cons rfl _
  | (key, value) :: members =>
    have hcomma (cs : List Char) : tokens (',' :: cs) = .comma :: tokens cs := tokens_cons rfl cs
    have hbehind := endsNumeral_items l (printMembers l members)
      (close.endsNumeral_lineStart (endsNumeral_of_mem (c := '\x7d') (by decide) rest))
    rw [printMembers, List.flatMap_cons]
    simp only [List.cons_append, List.append_assoc]
    rw [hcomma, Due.pushAll_cons rfl, Layout.tokens_lineStart, tokens_quote, Due.pushAll_cons rfl,
      Layout.tokens_colon, Due.pushAll_cons rfl, pushAll_print value l _ hbehind]
    exact pushAll_printMembers members l close stack ((literalOf key, value.tree) :: pairs) rest

end

/-- A value that has been printed is read, and nothing else. -/
theorem read_print (v : Value) (l : Layout) :
    read (String.ofList (v.print l)) = ⟨v.tree, false⟩ := by
  have hend : EndsNumeral [] := fun c hc => nomatch hc
  have hread := pushAll_print v l [] hend
  rw [List.append_nil, tokens_nil] at hread
  rw [read, Reading.ofTokens, String.toList_ofList, hread]
  rfl

end Value

/-! ## Decoding -/

section

variable {α β : Type} {d : Decoder α}

/-- A text in which a value has been printed is decoded as the value. -/
theorem decode_print (d : Decoder α) (v : Value) (l : Layout) :
    decode d (String.ofList (v.print l)) = d v.tree := by
  rw [decode, v.read_print]
  cases d v.tree <;> rfl

/-! ### Common decoders -/

theorem text_tree (s : String) : text (Value.text s).tree = .ok s := readLiteral_literalOf s

theorem optional_tree_ofText? {d : Decoder String} (hd : ∀ s, d (Value.text s).tree = .ok s)
    (s : Option String) : optional d (Value.ofText? s).tree = .ok s := by
  cases s with
  | none => rfl
  | some s =>
    change (d (Value.text s).tree).map some = _
    rw [hd]
    rfl

/-- An array is decoded value by value. -/
theorem list_tree_map {f : β → Value} {g : β → α} {values : List β}
    (h : ∀ b ∈ values, d (f b).tree = .ok (g b)) :
    list d (Value.array (values.map f)).tree = .ok (values.map g) := by
  change listItems d (Value.treeItems (values.map f)) = _
  induction values with
  | nil => rfl
  | cons b rest ih =>
    rw [List.forall_mem_cons] at h
    rw [List.map_cons, Value.treeItems, listItems, h.1, ih h.2]
    rfl

theorem list_tree_ofTexts (texts : List String) :
    list text (Value.ofTexts texts).tree = .ok texts := by
  have hlist : list text (Value.array (texts.map .text)).tree = .ok (texts.map id) :=
    list_tree_map fun s _ => text_tree s
  rwa [List.map_id] at hlist

/-- The fields of an object are found by their keys. -/
theorem recordOfMembers_treeMembers {fields : List Field} {members : List (String × Value)}
    (hfields : ∀ m ∈ members, ∃ field, fields.find? (fun f => f.key == m.1) = some field ∧
      field.check m.2.tree = .ok ()) (hkeys : (members.map Prod.fst).Nodup) {seen : Record}
    (hseen : ∀ m ∈ members, seen.lookup m.1 = none) :
    recordOfMembers fields seen (Value.treeMembers members) =
      .ok ((members.map fun m => (m.1, m.2.tree)).reverse ++ seen) := by
  induction members generalizing seen with
  | nil => rfl
  | cons m rest ih =>
    obtain ⟨key, value⟩ := m
    rw [List.forall_mem_cons] at hfields hseen
    obtain ⟨⟨field, hfield, hcheck⟩, hfields⟩ := hfields
    rw [List.map_cons, List.nodup_cons] at hkeys
    -- Keys that are still to come differ from this one.
    have hother : ∀ m ∈ rest, List.lookup m.1 ((key, value.tree) :: seen) = none := by
      intro m hm
      have hne : m.1 ≠ key := fun heq => hkeys.1 (List.mem_map.2 ⟨m, hm, heq⟩)
      rw [List.lookup_cons, beq_eq_false_iff_ne.2 hne]
      exact hseen.2 m hm
    rw [Value.treeMembers, recordOfMembers, readLiteral_literalOf]
    simp only [bind, Except.bind, hfield, hseen.1, hcheck]
    rw [ih hfields hkeys.2 hother]
    simp

/-- An object with members that are fields is a record of their values. -/
theorem readRecord_tree_object {fields : List Field} {members : List (String × Value)}
    (hfields : ∀ m ∈ members, ∃ field, fields.find? (fun f => f.key == m.1) = some field ∧
      field.check m.2.tree = .ok ()) (hkeys : (members.map Prod.fst).Nodup) :
    readRecord fields (Value.object members).tree =
      .ok (members.map fun m => (m.1, m.2.tree)).reverse := by
  rw [← List.append_nil (members.map fun m => (m.1, m.2.tree)).reverse]
  exact recordOfMembers_treeMembers hfields hkeys fun _ _ => rfl

end
end IntentFirewall.Json
