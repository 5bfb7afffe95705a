import OnionPool.Port.Allocator
import OnionPool.Process.Basic

/-!
# What pairs share

Pairs share the allocator of ports and the directory in which each of their programs has a
directory of its own, named by the program and its port. What a pair has taken it gives back by
chores, one after the other. A chore that cannot be done is given up, and the next one is turned to:
a program that resists counts as terminated, and a directory that cannot be removed is left there.
-/

namespace OnionPool

/-- The two programs of a pair. -/
inductive Role where
  /-- Tor, which reaches the network. -/
  | circuit
  /-- Privoxy, which clients reach. -/
  | forwarder
  deriving DecidableEq

def Role.service : Role → String
  | circuit => "tor"
  | forwarder => "privoxy"

/-- A program at a port. -/
structure Seat where
  role : Role
  port : Port
  deriving DecidableEq

/-- The name of the directory of a program at a port. -/
def Seat.folder (s : Seat) : String := s.role.service ++ "-" ++ s.port.text

/-- The files of a directory, by name. -/
abbrev Contents := List (String × String)

/-- A process of a pair; whether somebody holds it. -/
structure Worker where
  seat : Seat
  process : Process := .fresh
  isHeld : Bool := true

/-- Which process of all that pairs ever started. -/
abbrev WorkerId := Nat

/-- What pairs share. -/
structure Site where
  ports : PortAllocator
  /-- The directories that are there. -/
  folders : List (Seat × Contents) := []
  /-- All processes that were started, in order. -/
  workers : List Worker := []
  /-- The times at which programs were prepared for launch, the last one first. -/
  launches : List (Time × Seat) := []
  /-- The directories that could not be removed, the last one first. -/
  forgone : List Seat := []

namespace Site

/-- A directory with its contents. -/
def put (s : Site) (seat : Seat) (contents : Contents) : Site :=
  { s with folders := (seat, contents) :: s.folders.filter (·.1 ≠ seat) }

/-- No directory any more. -/
def clear (s : Site) (seat : Seat) : Site :=
  { s with folders := s.folders.filter (·.1 ≠ seat) }

/-- A directory that could not be removed, with what is left in it. -/
def forgo (s : Site) (seat : Seat) (left : Contents) : Site :=
  { s.put seat left with forgone := seat :: s.forgone }

def hasFolder (s : Site) (seat : Seat) : Bool := s.folders.any (·.1 = seat)

def release (s : Site) (p : Port) : Site := { s with ports := s.ports.release p }

def spawn (s : Site) (seat : Seat) : Site :=
  { s with workers := s.workers ++ [⟨seat, .fresh, true⟩] }

/-- The note that a program is prepared for launch. -/
def noteLaunch (s : Site) (now : Time) (seat : Seat) : Site :=
  { s with launches := (now, seat) :: s.launches }

/-- A process after some change. -/
def setProcess (s : Site) (w : WorkerId) (p : Process) : Site :=
  { s with workers := s.workers.modify w fun worker => { worker with process := p } }

/-- A process that nobody holds any more. -/
def drop (s : Site) (w : WorkerId) : Site :=
  { s with workers := s.workers.modify w fun worker => { worker with isHeld := false } }

/-- The process with a number. -/
def process? (s : Site) (w : WorkerId) : Option Process := s.workers[w]?.map (·.process)

/-- Whether a process was reaped. -/
def isReaped (s : Site) (w : WorkerId) : Bool := (s.process? w).any (·.reaped?.isSome)

/-- Something happens to a process; its termination is asked for by chores only. -/
def processStep (now : Time) (w : WorkerId) (a : Process.Action) (s : Site) : Option Site :=
  match a with
  | .terminate => none
  | a => do
    let worker ← s.workers[w]?
    let process ← worker.process.step worker.isHeld now a
    some (s.setProcess w process)

end Site

/-- One thing to be given back. -/
inductive Chore where
  /-- A process is to be terminated. -/
  | stop (w : WorkerId)
  /-- Its termination was asked for, and is awaited. -/
  | await (w : WorkerId) (call : CallId)
  | clear (seat : Seat)
  | release (port : Port)
  deriving DecidableEq

namespace Chore

/-- The next chore, or a part of it, if it can be done now: the chores that are left, and what is
shared after it. -/
def step : List Chore → Site → Option (List Chore × Site)
  | [], _ => none
  | stop w :: rest, s =>
    match s.process? w with
    | some p => some (await w p.nextCall :: rest, s.setProcess w p.terminate)
    | none => some (rest, s)
  | await w call :: rest, s =>
    if (s.process? w).any (·.hasReturned call) then some (rest, s.drop w) else none
  | clear seat :: rest, s => some (rest, s.clear seat)
  | release port :: rest, s => some (rest, s.release port)

/-- The next chore given up, if it is to remove a directory that is there: some of its files may be
left. -/
def forgo (left : Contents) : List Chore → Site → Option (List Chore × Site)
  | clear seat :: rest, s => if s.hasFolder seat then some (rest, s.forgo seat left) else none
  | _, _ => none

end Chore

end OnionPool
