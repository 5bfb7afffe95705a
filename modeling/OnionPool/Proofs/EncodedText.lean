import OnionPool.Text.Utf8

/-!
# Encoded text is read back

What is written in UTF-8 is read without a replacement. Each character is written as a first byte
that announces how many bytes follow, and as so many tails with six bits each; reading undoes this
one character at a time, whatever comes after it.

## Structure

- First bytes: what each range of them announces.
- Sequences: the character that is read from a sequence of one, two, three or four bytes, when its
  second byte is none of those that its first byte excludes.
- Characters: the sequence that a character is written as is one of these.
- Texts: a text is read back; and a byte below `80` is only ever the character itself.
-/

namespace OnionPool.Text.Utf8

/-! ## First bytes -/

theorem lead?_two {b : UInt8} (hlow : 0xC2 ≤ b.toNat) (hhigh : b.toNat < 0xE0) :
    lead? b = some ⟨1, b.toNat - 0xC0, 0x80, 0xBF⟩ := by
  have h1 : ¬ b < 0xC2 := by
    rw [UInt8.lt_iff_toNat_lt]
    exact Nat.not_lt.mpr hlow
  have h2 : b < 0xE0 := UInt8.lt_iff_toNat_lt.mpr hhigh
  rw [lead?, if_neg h1, if_pos h2]

theorem lead?_three {b : UInt8} (hlow : 0xE0 ≤ b.toNat) (hhigh : b.toNat < 0xF0) :
    lead? b = some ⟨2, b.toNat - 0xE0, if b.toNat = 0xE0 then 0xA0 else 0x80,
      if b.toNat = 0xED then 0x9F else 0xBF⟩ := by
  simp only [lead?, UInt8.lt_iff_toNat_lt, ← UInt8.toNat_inj, UInt8.reduceToNat]
  grind

theorem lead?_four {b : UInt8} (hlow : 0xF0 ≤ b.toNat) (hhigh : b.toNat ≤ 0xF4) :
    lead? b = some ⟨3, b.toNat - 0xF0, if b.toNat = 0xF0 then 0x90 else 0x80,
      if b.toNat = 0xF4 then 0x8F else 0xBF⟩ := by
  simp only [lead?, UInt8.lt_iff_toNat_lt, ← UInt8.toNat_inj, UInt8.reduceToNat]
  grind

/-! ## Sequences -/

section Sequences

variable {b c d e : UInt8} {rest : List UInt8}

theorem isTail_iff : isTail b = true ↔ 0x80 ≤ b.toNat ∧ b.toNat ≤ 0xBF := by
  simp only [isTail, Bool.and_eq_true, decide_eq_true_eq, UInt8.le_iff_toNat_le, UInt8.reduceToNat]

theorem not_lt_of_le_toNat (h : 0x80 ≤ b.toNat) : ¬ b < 0x80 := by
  rw [UInt8.lt_iff_toNat_lt]
  exact Nat.not_lt.mpr h

/-- A byte below 0x80 is a character by itself. -/
theorem first_one (hb : b.toNat < 0x80) : first b rest = (1, Char.ofNat b.toNat) := by
  rw [first, if_pos (UInt8.lt_iff_toNat_lt.mpr hb)]

/-- A lead of two bytes takes the tail behind it. -/
theorem first_two (hlow : 0xC2 ≤ b.toNat) (hhigh : b.toNat < 0xE0) (hc : isTail c = true) :
    first b (c :: rest) = (2, Char.ofNat (push (b.toNat - 0xC0) c)) := by
  rw [isTail_iff] at hc
  have hb : ¬ b < 0x80 := not_lt_of_le_toNat (by omega)
  have hrange : ¬ (c < 0x80 ∨ 0xBF < c) := by
    simp only [UInt8.lt_iff_toNat_lt, UInt8.reduceToNat]
    omega
  simp only [first, if_neg hb, lead?_two hlow hhigh, if_neg hrange, if_true]

/-- A lead of three bytes takes two tails, the first of which is neither too low nor a surrogate. -/
theorem first_three (hlow : 0xE0 ≤ b.toNat) (hhigh : b.toNat < 0xF0)
    (hc : isTail c = true) (hd : isTail d = true)
    (hshort : b.toNat = 0xE0 → 0xA0 ≤ c.toNat) (hsurrogate : b.toNat = 0xED → c.toNat ≤ 0x9F) :
    first b (c :: d :: rest) = (3, Char.ofNat (push (push (b.toNat - 0xE0) c) d)) := by
  rw [isTail_iff] at hc
  have hb : ¬ b < 0x80 := not_lt_of_le_toNat (by omega)
  have hrange : ¬ (c < (if b.toNat = 0xE0 then 0xA0 else 0x80) ∨
      (if b.toNat = 0xED then 0x9F else 0xBF) < c) := by
    simp only [UInt8.lt_iff_toNat_lt, apply_ite UInt8.toNat, UInt8.reduceToNat]
    grind
  simp [first, if_neg hb, lead?_three hlow hhigh, if_neg hrange, hd]

/-- A lead of four bytes takes three tails, the first of which is neither too low nor too high. -/
theorem first_four (hlow : 0xF0 ≤ b.toNat) (hhigh : b.toNat ≤ 0xF4)
    (hc : isTail c = true) (hd : isTail d = true) (he : isTail e = true)
    (hshort : b.toNat = 0xF0 → 0x90 ≤ c.toNat) (hlast : b.toNat = 0xF4 → c.toNat ≤ 0x8F) :
    first b (c :: d :: e :: rest) =
      (4, Char.ofNat (push (push (push (b.toNat - 0xF0) c) d) e)) := by
  rw [isTail_iff] at hc
  have hb : ¬ b < 0x80 := not_lt_of_le_toNat (by omega)
  have hrange : ¬ (c < (if b.toNat = 0xF0 then 0x90 else 0x80) ∨
      (if b.toNat = 0xF4 then 0x8F else 0xBF) < c) := by
    simp only [UInt8.lt_iff_toNat_lt, apply_ite UInt8.toNat, UInt8.reduceToNat]
    grind
  simp [first, if_neg hb, lead?_four hlow hhigh, if_neg hrange, hd, he]

end Sequences

/-! ## Characters -/

/-- A tail with the six lowest bits of a number. -/
def tail (n : Nat) : UInt8 := UInt8.ofNat (n % 64 + 0x80)

theorem toNat_tail (n : Nat) : (tail n).toNat = n % 64 + 0x80 := by
  rw [tail, UInt8.toNat_ofNat']
  omega

theorem isTail_tail (n : Nat) : isTail (tail n) = true := by
  rw [isTail_iff, toNat_tail]
  omega

/-- A tail carries the last six bits of a number. -/
theorem push_tail (bits n : Nat) : push bits (tail n) = bits * 64 + n % 64 := by
  have htail := toNat_tail n
  unfold push
  omega

/-- The sequence that a code point is written as: its highest bits after the mark of the length, and
the others six by six in tails. -/
inductive Sequence (n : Nat) : List UInt8 → Prop
  | one (h : n < 0x80) : Sequence n [UInt8.ofNat n]
  | two (hlow : 0x80 ≤ n) (hhigh : n < 0x800) : Sequence n [UInt8.ofNat (n / 64 + 0xC0), tail n]
  /-- The code points of surrogates stand for no characters. -/
  | three (hlow : 0x800 ≤ n) (hhigh : n < 0x10000) (hchar : n < 0xD800 ∨ 0xDFFF < n) :
      Sequence n [UInt8.ofNat (n / 4096 + 0xE0), tail (n / 64), tail n]
  | four (hlow : 0x10000 ≤ n) (hhigh : n < 0x110000) :
      Sequence n [UInt8.ofNat (n / 262144 + 0xF0), tail (n / 4096), tail (n / 64), tail n]

/-- The encoding of a character is the sequence of its number. -/
theorem sequence_utf8EncodeChar (c : Char) : Sequence c.toNat (String.utf8EncodeChar c) := by
  have hvalid : c.toNat < 0xD800 ∨ 0xDFFF < c.toNat ∧ c.toNat < 0x110000 := c.valid
  have hc : c.val.toNat = c.toNat := rfl
  unfold String.utf8EncodeChar
  rw [hc]
  -- The bits that are cut off a first byte are zero in the range that is written with it.
  rcases Nat.lt_or_ge c.toNat 0x80 with h1 | h1
  · rw [if_pos (by omega)]
    exact .one h1
  rcases Nat.lt_or_ge c.toNat 0x800 with h2 | h2
  · rw [if_neg (by omega), if_pos (by omega), Nat.mod_eq_of_lt (by omega)]
    exact .two h1 h2
  rcases Nat.lt_or_ge c.toNat 0x10000 with h3 | h3
  · rw [if_neg (by omega), if_neg (by omega), if_pos (by omega), Nat.mod_eq_of_lt (by omega)]
    exact .three h2 h3 (by omega)
  · rw [if_neg (by omega), if_neg (by omega), if_neg (by omega), Nat.mod_eq_of_lt (by omega)]
    exact .four h3 (by omega)

/-- A sequence is read as its character, whatever follows. -/
theorem Sequence.first_eq {n : Nat} {bytes : List UInt8} (h : Sequence n bytes)
    (rest : List UInt8) :
    ∃ b tails, bytes = b :: tails ∧ first b (tails ++ rest) = (tails.length + 1, Char.ofNat n) := by
  -- By the length of the sequence: its bytes give back the six-bit groups of the number.
  cases h with
  | one h =>
    have hb : (UInt8.ofNat n).toNat = n := by
      rw [UInt8.toNat_ofNat']
      omega
    refine ⟨_, _, rfl, ?_⟩
    rw [first_one (by omega), hb]
    rfl
  | two hlow hhigh =>
    have hb : (UInt8.ofNat (n / 64 + 0xC0)).toNat = n / 64 + 0xC0 := by
      rw [UInt8.toNat_ofNat']
      omega
    have hbits : (n / 64 + 0xC0 - 0xC0) * 64 + n % 64 = n := by omega
    refine ⟨_, _, rfl, ?_⟩
    rw [List.cons_append, first_two (by omega) (by omega) (isTail_tail _), push_tail, hb, hbits]
    rfl
  | three hlow hhigh hchar =>
    have hb : (UInt8.ofNat (n / 4096 + 0xE0)).toNat = n / 4096 + 0xE0 := by
      rw [UInt8.toNat_ofNat']
      omega
    have hsecond := toNat_tail (n / 64)
    have hbits : ((n / 4096 + 0xE0 - 0xE0) * 64 + n / 64 % 64) * 64 + n % 64 = n := by omega
    refine ⟨_, _, rfl, ?_⟩
    rw [List.cons_append, List.cons_append, first_three (by omega) (by omega) (isTail_tail _)
      (isTail_tail _) (by omega) (by omega), push_tail, push_tail, hb, hbits]
    rfl
  | four hlow hhigh =>
    have hb : (UInt8.ofNat (n / 262144 + 0xF0)).toNat = n / 262144 + 0xF0 := by
      rw [UInt8.toNat_ofNat']
      omega
    have hsecond := toNat_tail (n / 4096)
    have hbits : (((n / 262144 + 0xF0 - 0xF0) * 64 + n / 4096 % 64) * 64 + n / 64 % 64) * 64 +
        n % 64 = n := by omega
    refine ⟨_, _, rfl, ?_⟩
    rw [List.cons_append, List.cons_append, List.cons_append, first_four (by omega) (by omega)
      (isTail_tail _) (isTail_tail _) (isTail_tail _) (by omega) (by omega), push_tail, push_tail,
      push_tail, hb, hbits]
    rfl

/-- A byte below `80` is all of the sequence that it belongs to. -/
theorem Sequence.eq_of_mem {n : Nat} {bytes : List UInt8} {b : UInt8} (h : Sequence n bytes)
    (hmem : b ∈ bytes) (hb : b.toNat < 0x80) : n = b.toNat := by
  have htail : ∀ m, b ≠ tail m := by
    rintro m rfl
    rw [toNat_tail] at hb
    omega
  -- A byte of a longer sequence would have to be its first, which has a mark from `C0` on.
  have hfirst : ∀ m < 0x100, 0x80 ≤ m → b ≠ UInt8.ofNat m := by
    rintro m hm hlow rfl
    rw [UInt8.toNat_ofNat'] at hb
    omega
  cases h with
  | one h =>
    rw [List.mem_singleton.mp hmem, UInt8.toNat_ofNat']
    omega
  | two hlow hhigh =>
    simp only [List.mem_cons, htail, List.not_mem_nil, or_false] at hmem
    exact absurd hmem (hfirst _ (by omega) (by omega))
  | three hlow hhigh hchar =>
    simp only [List.mem_cons, htail, List.not_mem_nil, or_false] at hmem
    exact absurd hmem (hfirst _ (by omega) (by omega))
  | four hlow hhigh =>
    simp only [List.mem_cons, htail, List.not_mem_nil, or_false] at hmem
    exact absurd hmem (hfirst _ (by omega) (by omega))

/-! ## Texts -/

theorem encode_cons (c : Char) (s : List Char) :
    encode (c :: s) = String.utf8EncodeChar c ++ encode s := List.flatMap_cons

theorem encode_append (s t : List Char) : encode (s ++ t) = encode s ++ encode t :=
  List.flatMap_append

/-- What is written is read back. -/
theorem decode_encode (s : List Char) : decode (encode s) = s := by
  induction s with
  | nil => rw [encode, List.flatMap_nil, decode]
  | cons c s ih =>
    obtain ⟨b, tails, hc, hfirst⟩ := (sequence_utf8EncodeChar c).first_eq (encode s)
    rw [encode_cons, hc, List.cons_append, decode, hfirst]
    simp only [Nat.add_sub_cancel, List.drop_left, ih, Char.ofNat_toNat]

/-- A byte below `80` is in a text only as the character that it stands for. -/
theorem mem_of_mem_encode {b : UInt8} {s : List Char} (h : b ∈ encode s) (hb : b.toNat < 0x80) :
    Char.ofNat b.toNat ∈ s := by
  obtain ⟨c, hc, hbc⟩ := List.mem_flatMap.mp h
  rw [← (sequence_utf8EncodeChar c).eq_of_mem hbc hb, Char.ofNat_toNat]
  exact hc

end OnionPool.Text.Utf8
