import OnionPool.Text.Blank
import OnionPool.Text.Split

/-!
# Levels of log lines

The four severities of a re-emitted line, and the names that the supervised programs use for them.
-/

namespace OnionPool.Log

/-- The severity of a line. -/
inductive Level where
  | debug
  | info
  | warn
  | error
  deriving DecidableEq

namespace Level

/-- The names that stand for a level other than `info`. -/
def keywords : List (String × Level) := [
  ("debug", debug), ("trace", debug),
  ("warn", warn), ("warning", warn),
  ("err", error), ("error", error), ("fatal", error), ("alert", error), ("emerg", error),
  ("crit", error)]

/-- The level that a program's name for it means; a name that is no keyword means `info`. Case and
surrounding blanks do not matter. -/
def ofName (name : List Char) : Level :=
  let key := Text.lower (Text.trim name)
  match keywords.find? (fun (word, _) => word.toList = key) with
  | some (_, level) => level
  | none => info

def name : Level → String
  | debug => "debug"
  | info => "info"
  | warn => "warn"
  | error => "error"

end Level

end OnionPool.Log
