/-!
# Blank characters

The characters with the Unicode property `White_Space`, and the three operations on text that
depend on them: trimming, trimming in front, and splitting into words.

Text is a list of characters here, so that everything is structural recursion.
-/

namespace OnionPool.Text

/-- The characters with the Unicode property `White_Space`. -/
def isBlank (c : Char) : Bool :=
  let n := c.toNat
  (0x09 ≤ n && n ≤ 0x0D) || n == 0x20 || n == 0x85 || n == 0xA0 || n == 0x1680 ||
    (0x2000 ≤ n && n ≤ 0x200A) || n == 0x2028 || n == 0x2029 || n == 0x202F ||
    n == 0x205F || n == 0x3000

def trimStart (s : List Char) : List Char := s.dropWhile isBlank

def trimEnd (s : List Char) : List Char := (s.reverse.dropWhile isBlank).reverse

def trim (s : List Char) : List Char := trimEnd (trimStart s)

/-- The maximal runs of characters that are not blank, in order. -/
def words (s : List Char) : List (List Char) := go [] s
where
  /-- `word` is the run read so far, last character first. -/
  go (word : List Char) : List Char → List (List Char)
    | [] => if word = [] then [] else [word.reverse]
    | c :: rest =>
      if isBlank c then
        if word = [] then go [] rest else word.reverse :: go [] rest
      else go (c :: word) rest

end OnionPool.Text
