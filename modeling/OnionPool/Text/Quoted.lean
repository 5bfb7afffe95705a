import OnionPool.Text.Decimal
import OnionPool.Text.Invisible

/-!
# Quoted text

A text between double quotes, as diagnostics show it: quotes and backslashes are escaped, the common
controls have short forms, and other characters without a shape of their own are shown by number.
-/

namespace OnionPool.Text.Quoted

/-- The hexadecimal digits of a number, in lower case. -/
def hex (n : Nat) : List Char := Nat.toDigits 16 n

/-- One character as it stands between the quotes. -/
def escape (c : Char) : List Char :=
  if c = '\t' then ['\\', 't']
  else if c = '\n' then ['\\', 'n']
  else if c = '\r' then ['\\', 'r']
  else if c = Char.ofNat 0 then ['\\', '0']
  else if c = '"' then ['\\', '"']
  else if c = '\\' then ['\\', '\\']
  else if isInvisible c then ['\\', 'u', Char.ofNat 0x7B] ++ hex c.toNat ++ [Char.ofNat 0x7D]
  else [c]

def quote (s : String) : String :=
  String.ofList ('"' :: s.toList.flatMap escape ++ ['"'])

/-- Texts between brackets, separated by commas. -/
def list (items : List String) : String := "[" ++ String.intercalate ", " items ++ "]"

/-- A named record with named fields, between braces. -/
def record (name : String) (fields : List (String × String)) : String :=
  name ++ " \x7b " ++
    String.intercalate ", " (fields.map fun (field, text) => field ++ ": " ++ text) ++ " \x7d"

end OnionPool.Text.Quoted
