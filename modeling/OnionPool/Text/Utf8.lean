/-!
# Reading UTF-8 with replacement

Bytes become characters; each maximal part of an ill-formed sequence that begins like a well-formed
one, and each byte that begins none, becomes one replacement character. Every byte string can be
read, and well-formed UTF-8 is read without a replacement.
-/

namespace OnionPool.Text.Utf8

/-- U+FFFD, which stands for bytes that are not UTF-8. -/
def replacement : Char := '\uFFFD'

/-- What the first byte of a longer sequence announces: how many bytes follow, the bits that it
carries itself, and the range of the byte after it. The bytes after that are in `80` to `BF`. -/
structure Lead where
  following : Nat
  bits : Nat
  low : UInt8
  high : UInt8

/-- The sequence that a byte from `80` on begins; the ranges exclude overlong forms, surrogates and
what lies above the last code point. -/
def lead? (b : UInt8) : Option Lead :=
  if b < 0xC2 then none
  else if b < 0xE0 then some ⟨1, b.toNat - 0xC0, 0x80, 0xBF⟩
  else if b = 0xE0 then some ⟨2, 0, 0xA0, 0xBF⟩
  else if b = 0xED then some ⟨2, 0xD, 0x80, 0x9F⟩
  else if b < 0xF0 then some ⟨2, b.toNat - 0xE0, 0x80, 0xBF⟩
  else if b = 0xF0 then some ⟨3, 0, 0x90, 0xBF⟩
  else if b < 0xF4 then some ⟨3, b.toNat - 0xF0, 0x80, 0xBF⟩
  else if b = 0xF4 then some ⟨3, 4, 0x80, 0x8F⟩
  else none

/-- Whether a byte can stand at the third or fourth place of a sequence. -/
def isTail (b : UInt8) : Bool := 0x80 ≤ b && b ≤ 0xBF

/-- Six more bits of a code point. -/
def push (bits : Nat) (b : UInt8) : Nat := bits * 64 + (b.toNat - 0x80)

/-- The number of bytes, at least one, that the first character or replacement stands for, and that
character. -/
def first (b : UInt8) (rest : List UInt8) : Nat × Char :=
  if b < 0x80 then (1, Char.ofNat b.toNat)
  else match lead? b with
    | none => (1, replacement)
    | some l =>
      match rest with
      | [] => (1, replacement)
      | c :: rest =>
        if c < l.low ∨ l.high < c then (1, replacement)
        else if l.following = 1 then (2, Char.ofNat (push l.bits c))
        else match rest with
          | [] => (2, replacement)
          | d :: rest =>
            if !isTail d then (2, replacement)
            else if l.following = 2 then (3, Char.ofNat (push (push l.bits c) d))
            else match rest with
              | [] => (3, replacement)
              | e :: _ =>
                if !isTail e then (3, replacement)
                else (4, Char.ofNat (push (push (push l.bits c) d) e))

def decode : List UInt8 → List Char
  | [] => []
  | b :: rest =>
    let (used, c) := first b rest
    c :: decode (rest.drop (used - 1))
termination_by bytes => bytes.length
decreasing_by simp only [List.length_drop, List.length_cons]; omega

def encode (s : List Char) : List UInt8 := s.flatMap String.utf8EncodeChar

end OnionPool.Text.Utf8
