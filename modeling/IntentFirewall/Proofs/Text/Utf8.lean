import IntentFirewall.Text.Utf8

/-!
# Reading UTF-8 back

Bytes that were written for a text are read as that text, and they stand in the order of the texts.

* `decodeFrom_encodeChar`: the bytes of one character are read as that character.
* `decode_encode`, `decodeString_encode`: the bytes of a text are read as that text.
* `length_encode`: the size of a text is the number of its bytes.
* `length_encodeString_lt`: a text that occurs in another one has fewer bytes.
* `decodeFrom_of_prefix`: the first bytes of a text are those of a part of it, or no text.
* `encode_lt_encode`: the bytes of a smaller text are smaller.
-/

namespace IntentFirewall.Utf8

/-- A number below 256 survives the way through a byte. -/
private theorem toNat_ofNat_of_lt {n : Nat} (h : n < 256) : (UInt8.ofNat n).toNat = n := by
  simp [Nat.mod_eq_of_lt h]

/-- The six bits of a continuation byte, with the mark in front. -/
private theorem toNat_continuation (n : Nat) : (continuation n).toNat = 0x80 + n % 64 :=
  toNat_ofNat_of_lt (by omega)

/-- A lead byte puts a character under way. -/
private theorem decodeFrom_lead {n : Nat} {p : Pending} (hn : n < 256) (h : 0x80 ≤ n)
    (hp : Pending.ofLead? n = some p) (index : Nat) (acc : List Char) (rest : List UInt8) :
    decodeFrom none index acc (UInt8.ofNat n :: rest) = decodeFrom (some p) index acc rest := by
  rw [decodeFrom, toNat_ofNat_of_lt hn, if_neg (by omega), hp]

/-- A continuation byte that is not the last one. -/
private theorem decodeFrom_continuation {p : Pending} {n : Nat} (hlow : p.low ≤ 0x80 + n % 64)
    (hhigh : 0x80 + n % 64 ≤ p.high) (howed : p.owed - 1 ≠ 0) (index : Nat) (acc : List Char)
    (rest : List UInt8) :
    decodeFrom (some p) index acc (continuation n :: rest) =
      decodeFrom (some ⟨p.owed - 1, 0x80, 0xBF, p.bits * 64 + n % 64, p.taken + 1⟩) index acc
        rest := by
  rw [decodeFrom, toNat_continuation, if_pos ⟨hlow, hhigh⟩]
  simp [Pending.push, howed]

/-- The last continuation byte completes the character. -/
private theorem decodeFrom_last {p : Pending} {n : Nat} (hlow : p.low ≤ 0x80 + n % 64)
    (hhigh : 0x80 + n % 64 ≤ p.high) (howed : p.owed = 1) (index : Nat) (acc : List Char)
    (rest : List UInt8) :
    decodeFrom (some p) index acc (continuation n :: rest) =
      decodeFrom none (index + (p.taken + 1)) (Char.ofNat (p.bits * 64 + n % 64) :: acc)
        rest := by
  rw [decodeFrom, toNat_continuation, if_pos ⟨hlow, hhigh⟩]
  simp [Pending.push, howed]

/-! ## Lead bytes -/

private theorem ofLead?_two {n : Nat} (hlow : 0x80 ≤ n) (hhigh : n < 0x800) :
    Pending.ofLead? (0xC0 + n / 64) = some ⟨1, 0x80, 0xBF, n / 64, 1⟩ := by
  unfold Pending.ofLead?
  rw [if_pos (by omega), Nat.add_sub_cancel_left]

/-- The lead byte of three admits the second byte that is written after it. -/
private theorem exists_ofLead?_three {n : Nat} (hlow : 0x800 ≤ n) (hhigh : n < 0x10000)
    (hvalid : n < 0xD800 ∨ 0xDFFF < n) :
    ∃ low high, Pending.ofLead? (0xE0 + n / 4096) = some ⟨2, low, high, n / 4096, 1⟩ ∧
      low ≤ 0x80 + n / 64 % 64 ∧ 0x80 + n / 64 % 64 ≤ high := by
  -- Behind 0xE0 the lower bound keeps overlong forms out, behind 0xED the upper one surrogates.
  by_cases hE0 : n / 4096 = 0
  · exact ⟨0xA0, 0xBF, by simp [Pending.ofLead?, hE0], by omega, by omega⟩
  by_cases hED : n / 4096 = 0xD
  · exact ⟨0x80, 0x9F, by simp [Pending.ofLead?, hED], by omega, by omega⟩
  refine ⟨0x80, 0xBF, ?_, by omega, by omega⟩
  unfold Pending.ofLead?
  rw [if_neg (by omega), if_neg (by omega), if_neg (by omega), if_pos (by omega),
    Nat.add_sub_cancel_left]

/-- The lead byte of four admits the second byte that is written after it. -/
private theorem exists_ofLead?_four {n : Nat} (hlow : 0x10000 ≤ n) (hhigh : n < 0x110000) :
    ∃ low high, Pending.ofLead? (0xF0 + n / 262144) = some ⟨3, low, high, n / 262144, 1⟩ ∧
      low ≤ 0x80 + n / 4096 % 64 ∧ 0x80 + n / 4096 % 64 ≤ high := by
  -- Behind 0xF0 the lower bound keeps overlong forms out, behind 0xF4 the upper one what lies
  -- beyond the last code point.
  by_cases hF0 : n / 262144 = 0
  · exact ⟨0x90, 0xBF, by simp [Pending.ofLead?, hF0], by omega, by omega⟩
  by_cases hF4 : n / 262144 = 4
  · exact ⟨0x80, 0x8F, by simp [Pending.ofLead?, hF4], by omega, by omega⟩
  refine ⟨0x80, 0xBF, ?_, by omega, by omega⟩
  unfold Pending.ofLead?
  rw [if_neg (by omega), if_neg (by omega), if_neg (by omega), if_neg (by omega),
    if_neg (by omega), if_pos (by omega), Nat.add_sub_cancel_left]

/-! ## Characters and texts -/

/-- The bytes of a character are read as that character. -/
theorem decodeFrom_encodeChar (c : Char) (index : Nat) (acc : List Char) (rest : List UInt8) :
    decodeFrom none index acc (encodeChar c ++ rest) =
      decodeFrom none (index + charSize c) (c :: acc) rest := by
  have hvalid : c.toNat < 0xD800 ∨ 0xDFFF < c.toNat ∧ c.toNat < 0x110000 := c.valid
  have hc : Char.ofNat c.toNat = c := Char.ofNat_toNat c
  unfold encodeChar charSize
  -- From here on only the code point counts. Its bits are put together again, six by six.
  generalize c.toNat = n at hvalid hc
  by_cases h1 : n < 0x80
  · simp only [if_pos h1, List.cons_append, List.nil_append]
    rw [decodeFrom, toNat_ofNat_of_lt (by omega), if_pos h1, hc]
  by_cases h2 : n < 0x800
  · simp only [if_neg h1, if_pos h2, List.cons_append, List.nil_append]
    have hbits : n / 64 * 64 + n % 64 = n := by omega
    rw [decodeFrom_lead (by omega) (by omega) (ofLead?_two (by omega) h2),
      decodeFrom_last (by simp only; omega) (by simp only; omega) rfl]
    simp only [hbits, hc]
  by_cases h3 : n < 0x10000
  · simp only [if_neg h1, if_neg h2, if_pos h3, List.cons_append, List.nil_append]
    obtain ⟨low, high, hlead, hlow, hhigh⟩ := exists_ofLead?_three (by omega) h3 (by omega)
    have hbits : (n / 4096 * 64 + n / 64 % 64) * 64 + n % 64 = n := by omega
    rw [decodeFrom_lead (by omega) (by omega) hlead,
      decodeFrom_continuation hlow hhigh (by simp),
      decodeFrom_last (by simp only; omega) (by simp only; omega) rfl]
    simp only [hbits, hc]
  · simp only [if_neg h1, if_neg h2, if_neg h3, List.cons_append, List.nil_append]
    obtain ⟨low, high, hlead, hlow, hhigh⟩ := exists_ofLead?_four (n := n) (by omega) (by omega)
    have hbits : ((n / 262144 * 64 + n / 4096 % 64) * 64 + n / 64 % 64) * 64 + n % 64 = n := by
      omega
    rw [decodeFrom_lead (by omega) (by omega) hlead,
      decodeFrom_continuation hlow hhigh (by simp),
      decodeFrom_continuation (by simp only; omega) (by simp only; omega) (by simp),
      decodeFrom_last (by simp only; omega) (by simp only; omega) rfl]
    simp only [hbits, hc]

theorem decodeFrom_encode (cs : List Char) (index : Nat) (acc : List Char) :
    decodeFrom none index acc (encode cs) = .ok (acc.reverse ++ cs) := by
  induction cs generalizing index acc with
  | nil => simp [encode, decodeFrom]
  | cons c cs ih =>
    have hencode : encode (c :: cs) = encodeChar c ++ encode cs := rfl
    rw [hencode, decodeFrom_encodeChar, ih]
    simp

/-- The bytes of a text are read as that text. -/
theorem decode_encode (cs : List Char) : decode (encode cs) = .ok cs := by
  rw [decode, decodeFrom_encode, List.reverse_nil, List.nil_append]

/-- The bytes of a text are read as that text, as a string. -/
theorem decodeString_encode (cs : List Char) :
    decodeString (encode cs) = .ok (String.ofList cs) := by
  rw [decodeString, decode_encode]
  rfl

/-- Different texts have different bytes. -/
theorem encode_injective {cs ds : List Char} (h : encode cs = encode ds) : cs = ds := by
  have hread : decode (encode cs) = decode (encode ds) := congrArg decode h
  rw [decode_encode, decode_encode] at hread
  exact Except.ok.inj hread

/-- The size of a text is the number of its bytes. -/
theorem length_encode (cs : List Char) : (encode cs).length = size cs := by
  have hchar (c : Char) : (encodeChar c).length = charSize c := by
    unfold encodeChar charSize
    dsimp only
    repeat' split
    all_goals rfl
  have hsum (n : Nat) : cs.foldl (fun n c => n + charSize c) n = n + (encode cs).length := by
    induction cs generalizing n with
    | nil => rfl
    | cons c cs ih =>
      rw [List.foldl_cons, ih, encode, encode, List.flatMap_cons, List.length_append, hchar,
        Nat.add_assoc]
  rw [size, hsum, Nat.zero_add]

/-! ## Bytes that are cut off -/

theorem encode_append (cs ds : List Char) : encode (cs ++ ds) = encode cs ++ encode ds :=
  List.flatMap_append

/-- The bytes of a part of a text stand side by side in those of the text. -/
theorem encode_infix {part cs : List Char} (h : part <:+: cs) : encode part <:+: encode cs := by
  obtain ⟨front, behind, rfl⟩ := h
  exact ⟨encode front, encode behind, by rw [encode_append, encode_append]⟩

/-- A text that occurs in another one has fewer bytes. -/
theorem length_encodeString_lt {part text : String} (h : part.toList <:+: text.toList)
    (hne : part ≠ text) : (encodeString part).length < (encodeString text).length := by
  have hbytes : encodeString part <:+: encodeString text := encode_infix h
  refine Nat.lt_of_le_of_ne hbytes.length_le fun hlength => hne ?_
  -- Of two texts with as many bytes, neither has anything around the other.
  exact String.toList_inj.1 (encode_injective (hbytes.eq_of_length hlength))

/-- The first bytes of a character are no text. -/
theorem decodeFrom_take_encodeChar (c : Char) {n : Nat} (hpos : 0 < n)
    (hn : n < (encodeChar c).length) (index : Nat) (acc : List Char) :
    decodeFrom none index acc ((encodeChar c).take n) = .error ⟨index, .incomplete⟩ := by
  have hvalid : c.toNat < 0xD800 ∨ 0xDFFF < c.toNat ∧ c.toNat < 0x110000 := c.valid
  unfold encodeChar at hn ⊢
  generalize c.toNat = m at hvalid hn
  by_cases h1 : m < 0x80
  · simp only [if_pos h1, List.length_singleton] at hn
    omega
  by_cases h2 : m < 0x800
  · simp only [if_neg h1, if_pos h2, List.length_cons, List.length_nil] at hn ⊢
    obtain rfl : n = 1 := by omega
    simp only [List.take_succ_cons, List.take_zero]
    rw [decodeFrom_lead (by omega) (by omega) (ofLead?_two (by omega) h2), decodeFrom]
  by_cases h3 : m < 0x10000
  · simp only [if_neg h1, if_neg h2, if_pos h3, List.length_cons, List.length_nil] at hn ⊢
    obtain ⟨low, high, hlead, hlow, hhigh⟩ := exists_ofLead?_three (by omega) h3 (by omega)
    obtain rfl | rfl : n = 1 ∨ n = 2 := by omega
    · simp only [List.take_succ_cons, List.take_zero]
      rw [decodeFrom_lead (by omega) (by omega) hlead, decodeFrom]
    · simp only [List.take_succ_cons, List.take_zero]
      rw [decodeFrom_lead (by omega) (by omega) hlead,
        decodeFrom_continuation hlow hhigh (by simp), decodeFrom]
  · simp only [if_neg h1, if_neg h2, if_neg h3, List.length_cons, List.length_nil] at hn ⊢
    obtain ⟨low, high, hlead, hlow, hhigh⟩ := exists_ofLead?_four (n := m) (by omega) (by omega)
    obtain rfl | rfl | rfl : n = 1 ∨ n = 2 ∨ n = 3 := by omega
    · simp only [List.take_succ_cons, List.take_zero]
      rw [decodeFrom_lead (by omega) (by omega) hlead, decodeFrom]
    · simp only [List.take_succ_cons, List.take_zero]
      rw [decodeFrom_lead (by omega) (by omega) hlead,
        decodeFrom_continuation hlow hhigh (by simp), decodeFrom]
    · simp only [List.take_succ_cons, List.take_zero]
      rw [decodeFrom_lead (by omega) (by omega) hlead,
        decodeFrom_continuation hlow hhigh (by simp),
        decodeFrom_continuation (by simp only; omega) (by simp only; omega) (by simp), decodeFrom]

/-- The first bytes of a text are those of a part of it, or no text. -/
theorem decodeFrom_of_prefix {cs : List Char} {bytes : List UInt8} (h : bytes <+: encode cs) :
    (∃ part, part <+: cs ∧ bytes = encode part) ∨
      ∀ index acc, ∃ e, decodeFrom none index acc bytes = .error e := by
  induction cs generalizing bytes with
  | nil => exact .inl ⟨[], List.nil_prefix, List.prefix_nil.1 h⟩
  | cons c cs ih =>
    have hencode : encode (c :: cs) = encodeChar c ++ encode cs := rfl
    rw [hencode] at h
    obtain hle | ⟨behind, rfl⟩ := List.prefix_or_prefix_of_prefix h (List.prefix_append _ _)
    · -- The bytes end in the first character, or in front of it or behind it.
      rw [List.prefix_iff_eq_take] at hle
      obtain hnil | hpos := Nat.eq_zero_or_pos bytes.length
      · exact .inl ⟨[], List.nil_prefix, List.length_eq_zero_iff.1 hnil⟩
      · by_cases hshort : bytes.length < (encodeChar c).length
        · refine .inr fun index acc => ⟨⟨index, .incomplete⟩, ?_⟩
          rw [hle]
          exact decodeFrom_take_encodeChar c hpos hshort index acc
        · refine .inl ⟨[c], List.prefix_append [c] cs, ?_⟩
          rw [hle, List.take_of_length_le (Nat.le_of_not_lt hshort)]
          simp [encode]
    · rcases ih ((List.prefix_append_right_inj _).1 h) with ⟨part, hpart, rfl⟩ | herror
      · exact .inl ⟨c :: part, List.cons_prefix_cons.2 ⟨rfl, hpart⟩, rfl⟩
      · refine .inr fun index acc => ?_
        rw [decodeFrom_encodeChar]
        exact herror _ _

/-! ## The order of bytes -/

private theorem ofNat_lt_iff {n m : Nat} (hn : n < 256) (hm : m < 256) :
    UInt8.ofNat n < UInt8.ofNat m ↔ n < m := by
  rw [UInt8.lt_iff_toNat_lt, toNat_ofNat_of_lt hn, toNat_ofNat_of_lt hm]

private theorem ofNat_eq_iff {n m : Nat} (hn : n < 256) (hm : m < 256) :
    UInt8.ofNat n = UInt8.ofNat m ↔ n = m := by
  rw [← UInt8.toNat_inj, toNat_ofNat_of_lt hn, toNat_ofNat_of_lt hm]

private theorem continuation_lt_iff (n m : Nat) :
    continuation n < continuation m ↔ n % 64 < m % 64 := by
  rw [UInt8.lt_iff_toNat_lt, toNat_continuation, toNat_continuation]
  omega

private theorem continuation_eq_iff (n m : Nat) :
    continuation n = continuation m ↔ n % 64 = m % 64 := by
  rw [← UInt8.toNat_inj, toNat_continuation, toNat_continuation]
  omega

/-- The bytes of a smaller character are smaller, whatever stands behind them. -/
theorem encodeChar_append_lt {c d : Char} (h : c < d) (xs ys : List UInt8) :
    encodeChar c ++ xs < encodeChar d ++ ys := by
  have hd : d.toNat < 0xD800 ∨ 0xDFFF < d.toNat ∧ d.toNat < 0x110000 := d.valid
  have hlt : c.toNat < d.toNat := h
  unfold encodeChar
  generalize c.toNat = n at hlt
  generalize d.toNat = m at hlt hd
  dsimp only
  -- More bytes have a greater lead byte; of equally many, the first that differ decide.
  repeat' split
  all_goals
    simp (disch := omega) only [List.cons_append, List.nil_append, List.cons_lt_cons_iff,
      ofNat_lt_iff, ofNat_eq_iff, continuation_lt_iff, continuation_eq_iff]
    omega

/-- The bytes of a smaller text are smaller. -/
theorem encode_lt_encode {cs ds : List Char} (h : cs < ds) : encode cs < encode ds := by
  induction h with
  | @nil d ds =>
    have hne : encodeChar d ≠ [] := by
      unfold encodeChar
      dsimp only
      repeat' split
      all_goals simp
    obtain ⟨b, bytes, hbytes⟩ := List.exists_cons_of_ne_nil hne
    rw [encode, encode, List.flatMap_nil, List.flatMap_cons, hbytes]
    exact List.nil_lt_cons _ _
  | rel h => exact encodeChar_append_lt h _ _
  | cons _ ih => exact List.append_left_lt ih

end IntentFirewall.Utf8
