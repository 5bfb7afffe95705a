import OnionPool.Duration
import OnionPool.Failure
import OnionPool.Log.Format

/-!
# Launch specifications

What has to be known to launch and supervise a program: under which name and for which port it
runs, the program with its arguments, the format of its output, and how long it has to survive
before it counts as started.
-/

namespace OnionPool

/-- Everything needed to launch a supervised program. -/
structure LaunchSpec where
  service : String
  port : Port
  program : String
  args : List String := []
  format : Log.Format := .plain
  settle : Duration := .ofMillis 250
  deriving DecidableEq

namespace LaunchSpec

def arg (s : LaunchSpec) (a : String) : LaunchSpec := { s with args := s.args ++ [a] }

def withArgs (s : LaunchSpec) (as : List String) : LaunchSpec := { s with args := s.args ++ as }

/-- The failure to start what the spec describes. -/
def failure (s : LaunchSpec) (reason : String) : Failure := .launch s.service s.port reason

open Text.Quoted (quote list)

/-- The spec with all its parts but the format of the output. -/
def record (s : LaunchSpec) : String :=
  Text.Quoted.record "ProcessSpec" [
    ("service", quote s.service), ("port", s.port.text), ("program", quote s.program),
    ("args", list (s.args.map quote)), ("settle", s.settle.text)]

end LaunchSpec

end OnionPool
