import OnionPool.Text.Decimal

/-!
# How a process ends

A process exits with a code or is ended by a signal, is killed by its supervisor, or its end leaves
no trace.
-/

namespace OnionPool

/-- How a program ended by itself. -/
inductive ExitStatus where
  | code (n : Nat)
  /-- Perhaps its memory was dumped. -/
  | signal (n : Nat) (dumped : Bool)
  deriving DecidableEq

namespace ExitStatus

/-- The names of the signals, from the first on. -/
def signalNames : List String := [
  "SIGHUP", "SIGINT", "SIGQUIT", "SIGILL", "SIGTRAP", "SIGABRT", "SIGBUS", "SIGFPE", "SIGKILL",
  "SIGUSR1", "SIGSEGV", "SIGUSR2", "SIGPIPE", "SIGALRM", "SIGTERM", "SIGSTKFLT", "SIGCHLD",
  "SIGCONT", "SIGSTOP", "SIGTSTP", "SIGTTIN", "SIGTTOU", "SIGURG", "SIGXCPU", "SIGXFSZ",
  "SIGVTALRM", "SIGPROF", "SIGWINCH", "SIGIO", "SIGPWR", "SIGSYS"]

def signalName? (n : Nat) : Option String := if n = 0 then none else signalNames[n - 1]?

/-- The name of a signal in brackets, if it has one. -/
def signalRemark (n : Nat) : String :=
  match signalName? n with
  | some name => " (" ++ name ++ ")"
  | none => ""

def text : ExitStatus → String
  | code n => "exit status: " ++ Text.decimal n
  | signal n false => "signal: " ++ Text.decimal n ++ signalRemark n
  | signal n true => "signal: " ++ Text.decimal n ++ signalRemark n ++ " (core dumped)"

def isSuccess : ExitStatus → Bool
  | code n => n = 0
  | signal _ _ => false

end ExitStatus

/-- How a supervised process ended. -/
inductive Outcome where
  | exited (status : ExitStatus)
  | killed
  /-- The status could not be collected. -/
  | unknown
  deriving DecidableEq

namespace Outcome

/-- The outcome of a program that ended by itself: its status, if that could be collected. -/
def ofStatus : Option ExitStatus → Outcome
  | some status => exited status
  | none => unknown

theorem ofStatus_ne_killed (status : Option ExitStatus) : ofStatus status ≠ killed := by
  cases status <;> simp [ofStatus]

def text : Outcome → String
  | exited status => status.text
  | killed => "killed"
  | unknown => "unknown exit"

end Outcome

end OnionPool
