import OnionPool.Text.Blank
import OnionPool.Text.Decimal
import OnionPool.Text.Utf8

/-!
# Environment variables

A variable is unset, holds bytes that are no text, or holds a text. A setting that is not a text
falls back to its default. Numbers may have blanks around them.
-/

namespace OnionPool

/-- What the environment says about a variable. -/
inductive Variable where
  | unset
  /-- The bytes are not UTF-8. -/
  | undecodable
  | text (value : String)
  deriving DecidableEq

/-- What some bytes are as a value. -/
def Variable.ofBytes (bytes : List UInt8) : Variable :=
  let text := Text.Utf8.decode bytes
  if Text.Utf8.encode text = bytes then .text (String.ofList text) else .undecodable

/-- The value of every variable. -/
abbrev Environment := String → Variable

namespace Environment

/-- The text of a variable, or the default. -/
def textOr (env : Environment) (name default : String) : String :=
  match env name with
  | .text value => value
  | .unset | .undecodable => default

/-- The number below `bound` that a variable, or the default, denotes. -/
def number? (env : Environment) (name default : String) (bound : Nat) : Option Nat :=
  Text.Decimal.read? bound (Text.trim (env.textOr name default).toList)

/-- Whether a variable is switched on: exactly the text `true` does that. -/
def flag (env : Environment) (name : String) : Bool := env.textOr name "false" = "true"

end Environment

end OnionPool
