import OnionPool.Process.Basic
import OnionPool.Text.Decimal
import OnionPool.Text.Split

/-!
# Stand-ins for programs

In a rehearsal every program is a stand-in that survives its settle window and runs until somebody
ends it, or ends at once, or is missing, or cannot even be prepared for its launch.
-/

namespace OnionPool

/-- What a stand-in does. -/
inductive Kind where
  /-- It survives a settle window of some length, and runs on. -/
  | runs (settle : Nat)
  | ends (status : ExitStatus)
  | missing
  /-- Its launch cannot be prepared. -/
  | unprepared (reason : String)
  deriving DecidableEq

namespace Kind

/-- A number from its decimal text. -/
def number (s : List Char) : Nat := Text.Decimal.value 0 s

/-- The kind that a text denotes: a name, and after a colon what belongs to it. -/
def ofText (s : String) : Kind :=
  match Text.cutAt? [':'] s.toList with
  | none => missing
  | some (name, rest) =>
    if name = "run".toList then runs (number rest)
    else if name = "exit".toList then ends (.code (number rest))
    else if name = "signal".toList then ends (.signal (number rest) false)
    else unprepared (String.ofList rest)

/-- How long the settle window of a stand-in is; one that ends at once does so within it. -/
def settle : Kind → Nat
  | runs n => n
  | ends _ => 1
  | missing | unprepared _ => 0

/-- What happens by itself to the process of a stand-in: it ends if that is its kind, and the output
of a program ends with it. -/
def fate (k : Kind) (p : Process) : List Process.Action :=
  if p.isRunning then
    match k with
    | ends status => [.finish (some status)]
    | runs _ | missing | unprepared _ => []
  else if p.drainedAt = none then [.drain]
  else []

/-- The kind for a launch, counted from zero: the last one is repeated. -/
def pick (kinds : List Kind) (default : Kind) (n : Nat) : Kind :=
  match kinds[n]? with
  | some k => k
  | none => kinds.getLast?.getD default

end Kind

end OnionPool
