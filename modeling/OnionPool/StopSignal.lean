/-!
# The signal to stop

Everything that runs for long watches one signal to stop. It is raised once and for all; and if
whoever could raise it goes away, those who watch it stop waiting too.
-/

namespace OnionPool

/-- A signal to stop: whether it was raised, and whether somebody is left who could raise it. -/
structure StopSignal where
  raised : Bool := false
  attended : Bool := true
  deriving DecidableEq

namespace StopSignal

def new : StopSignal := {}

def raise (s : StopSignal) : StopSignal := { s with raised := true }

/-- The signal after nobody is left who could raise it. -/
def desert (s : StopSignal) : StopSignal := { s with attended := false }

/-- Whether waiting for the signal is over. -/
def isOver (s : StopSignal) : Bool := s.raised || !s.attended

@[simp] theorem isOver_raise (s : StopSignal) : s.raise.isOver = true := rfl

@[simp] theorem isOver_desert (s : StopSignal) : s.desert.isOver = true := by
  simp [desert, isOver]

end StopSignal

end OnionPool
