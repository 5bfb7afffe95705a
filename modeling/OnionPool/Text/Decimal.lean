/-!
# Decimal numbers

Unsigned decimals: written with the fewest digits, read from an optional plus sign and one or more
ASCII digits, and refused from a given bound on. Reading takes any number of leading zeros.
-/

namespace OnionPool.Text.Decimal

/-- The digits of a number, most significant first; zero has one digit. -/
def digits (n : Nat) : List Char := Nat.toDigits 10 n

/-- An ASCII decimal digit. -/
def isDigit (c : Char) : Bool := '0' ≤ c && c ≤ '9'

/-- The number that a row of digits denotes, continuing from the digits read so far. -/
def value (start : Nat) (ds : List Char) : Nat :=
  ds.foldl (fun n c => 10 * n + (c.toNat - '0'.toNat)) start

/-- The text without one leading plus sign. -/
def dropPlus : List Char → List Char
  | '+' :: rest => rest
  | s => s

/-- The number below `bound` that a text denotes: an optional plus sign, then one or more digits
and nothing else. -/
def read? (bound : Nat) (s : List Char) : Option Nat :=
  let ds := dropPlus s
  if ds ≠ [] ∧ ds.all isDigit ∧ value 0 ds < bound then some (value 0 ds) else none

end OnionPool.Text.Decimal

namespace OnionPool.Text

/-- A number in decimal, as a string. -/
def decimal (n : Nat) : String := String.ofList (Decimal.digits n)

end OnionPool.Text
