import OnionPool.Failure
import OnionPool.Text.Decimal
import OnionPool.Text.Split

/-!
# The filter of the application's own log

The application logs at five severities. A filter lets through the lines of a severity and of all
that are worse; it is named like the severity, or by its number. A list of directives, separated by
commas, sets filters for the parts of the application by their names.
-/

namespace OnionPool.Log

/-- The severity of a line of the application's own log. -/
inductive Severity where
  | error
  | warn
  | info
  | debug
  | trace
  deriving DecidableEq

namespace Severity

def name : Severity → String
  | error => "ERROR"
  | warn => "WARN"
  | info => "INFO"
  | debug => "DEBUG"
  | trace => "TRACE"

/-- How many severities a filter for this one lets through. -/
def rank : Severity → Nat
  | error => 1
  | warn => 2
  | info => 3
  | debug => 4
  | trace => 5

end Severity

/-- How many severities a filter lets through, from the worst on. -/
structure Filter where
  rank : Nat
  deriving DecidableEq

namespace Filter

/-- The names of filters. -/
def names : List (String × Nat) :=
  [("off", 0), ("error", 1), ("warn", 2), ("info", 3), ("debug", 4), ("trace", 5)]

def all : Filter := ⟨5⟩

/-- The first number that names no filter. -/
def bound : Nat := 6

/-- The filter with a name, in upper or lower case, or a number. -/
def ofName? (name : List Char) : Option Filter :=
  match Text.Decimal.read? bound name with
  | some n => some ⟨n⟩
  | none => (names.find? fun (n, _) => n.toList = Text.lower name).map fun (_, rank) => ⟨rank⟩

def passes (f : Filter) (s : Severity) : Bool := s.rank ≤ f.rank

end Filter

/-- A filter for the parts of the application whose names begin with a text. -/
structure Directive where
  target : List Char
  filter : Filter

namespace Directive

/-- Why a directive has no meaning. -/
inductive Fault where
  /-- It does not begin like a name. -/
  | malformed
  /-- The name of its filter is unknown. -/
  | unknownFilter
  deriving DecidableEq

def Fault.message : Fault → String
  | malformed => "invalid filter directive"
  | unknownFilter =>
    "error parsing level filter: expected one of \"off\", \"error\", \"warn\", \"info\", " ++
      "\"debug\", \"trace\", or a number 0-5"

/-- Whether a directive may begin with a character. -/
def isOpening (c : Char) : Bool := c.isAlphanum || c = '-' || c = ':' || c = '_' || 127 < c.toNat

/-- A directive is a target and a filter with an equals sign between them, or only one of the two.
A target without a filter has everything let through, a filter without a target holds for all. -/
def read (text : List Char) : Except Fault Directive :=
  if !(text.head?.any isOpening) then .error .malformed
  else
    let target := text.takeWhile (· ≠ '=')
    match text.dropWhile (· ≠ '=') with
    | [] =>
      match Filter.ofName? text with
      | some f => .ok ⟨[], f⟩
      | none => .ok ⟨text, .all⟩
    | _ :: [] => .ok ⟨target, .all⟩
    | _ :: name =>
      match Filter.ofName? name with
      | some f => .ok ⟨target, f⟩
      | none => .error .unknownFilter

/-- The directives of a list, separated by commas; empty ones are passed over. -/
def split (text : List Char) : List (List Char) := (text.splitOn ',').filter (· ≠ [])

/-- Of two directives, the one with the longer target; the second one if they have the same. -/
def stronger (a b : Directive) : Directive := if b.target.length < a.target.length then a else b

/-- The filter that directives set for a name: the one with the longest matching target. -/
def filterFor (name : List Char) (ds : List Directive) : Option Filter :=
  match ds.filter (·.target.isPrefixOf name) with
  | [] => none
  | d :: rest => some (rest.foldl stronger d).filter

end Directive

/-- A line of the application's own log, with the failure that it tells of. -/
structure Line where
  severity : Severity
  message : String
  failure : Option Failure := none

end OnionPool.Log
