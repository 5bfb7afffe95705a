import OnionPool.Machine
import OnionPool.Process.Outcome

/-!
# Supervised processes

A process is watched by a monitor. The monitor collects the exit status of a program that ends by
itself, or kills the program: when somebody asks for that, or when nobody holds the process any
more. It publishes the outcome twice: at once when the program is reaped, and again when the output
is read to its end, which it awaits no longer than the drain grace.

Any number of callers may ask for termination. The monitor has one place for a request; callers who
find it taken wait in line for it. The monitor takes at most one request, and forgets the others
when it is done.
-/

namespace OnionPool

/-- Which of the callers that asked for termination, in the order in which they came. -/
abbrev CallId := Nat

/-- How far a caller who asked for termination has come. -/
inductive Call where
  /-- It has not looked at the process yet. -/
  | entered
  /-- It saw a process that was not reaped, and is about to send a request. -/
  | sending
  /-- It stands in line for the place of the request. -/
  | queued
  /-- Its request is in the monitor's place or hands, and it awaits the answer. -/
  | requested
  /-- It awaits the end of the output. -/
  | waiting
  /-- It is done. -/
  | returned
  deriving DecidableEq

/-- What the monitor of a process does. -/
inductive Phase where
  /-- It waits for the program to end and for requests. -/
  | watching
  /-- It has killed the program, for a caller or because nobody holds the process. -/
  | killing (caller : Option CallId)
  /-- It has reaped the program and waits for the end of its output. -/
  | draining (outcome : Outcome) (since : Time)
  /-- It is done. -/
  | finished (outcome : Outcome) (reapedAt exitedAt : Time)
  deriving DecidableEq

/-- A process under supervision. -/
structure Process where
  phase : Phase := .watching
  /-- How the program ended by itself, from then on. -/
  ended : Option Outcome := none
  /-- When the output was read to its end, from then on. -/
  drainedAt : Option Time := none
  /-- The caller whose request is in the monitor's place. -/
  slot : Option CallId := none
  /-- The callers who stand in line for it. -/
  queue : List CallId := []
  /-- All callers, in the order in which they came. -/
  calls : List Call := []
  deriving DecidableEq

namespace Process

/-- How long the monitor waits for the end of the output of a program that it has reaped. -/
def drainGrace : Time := 2000

def fresh : Process := {}

/-- The signal that the program was reaped. -/
def reaped? (p : Process) : Option Outcome :=
  match p.phase with
  | .watching | .killing _ => none
  | .draining outcome _ | .finished outcome _ _ => some outcome

/-- The signal that the process is done with. -/
def exited? (p : Process) : Option Outcome :=
  match p.phase with
  | .finished outcome _ _ => some outcome
  | .watching | .killing _ | .draining _ _ => none

/-- Whether the program still runs, as far as its monitor knows. -/
def isRunning (p : Process) : Bool :=
  match p.phase with
  | .watching => p.ended.isNone
  | .killing _ | .draining _ _ | .finished _ _ _ => false

def setCall (p : Process) (i : CallId) (c : Call) : Process := { p with calls := p.calls.set i c }

def isIdle (p : Process) : Bool := p.calls.all (· = .returned)

/-- What can happen to a process. -/
inductive Action where
  /-- Somebody asks for termination. -/
  | terminate
  /-- The program ends by itself. Perhaps there is no status that could be collected. -/
  | finish (status : Option ExitStatus)
  /-- The output is closed and read to its end. -/
  | drain
  /-- The monitor collects the status of a program that ended by itself, or fails to. -/
  | reap
  /-- The monitor takes the request from its place and kills the program. -/
  | take
  /-- The monitor kills a program that nobody holds any more. -/
  | abandon
  /-- The monitor reaps the program that it killed. -/
  | collect
  /-- The program cannot be killed, or not be reaped after that. -/
  | resist
  /-- The monitor publishes the end of the process. -/
  | publish
  /-- A caller looks whether the program was reaped already. -/
  | look (i : CallId)
  | send (i : CallId)
  /-- A caller learns that the monitor is done without having taken its request. -/
  | giveUp (i : CallId)
  /-- A caller sees the end of the process. -/
  | leave (i : CallId)
  deriving DecidableEq

/-- Whether an action happens as soon as it can. -/
def Action.isUrgent : Action → Bool
  | terminate | finish _ | drain => false
  | reap | take | abandon | collect | resist | publish | look _ | send _ | giveUp _
  | leave _ => true

/-- A caller may ask at any time. -/
def terminate (p : Process) : Process := { p with calls := p.calls ++ [.entered] }

/-- A program that runs, or was just killed, may end by itself. -/
def finish (p : Process) (status : Option ExitStatus) : Option Process :=
  match p.phase with
  | .watching | .killing _ =>
    if p.ended = none then some { p with ended := some (.ofStatus status) } else none
  | .draining _ _ | .finished _ _ _ => none

/-- The output ends once. -/
def drain (now : Time) (p : Process) : Option Process :=
  if p.drainedAt = none then some { p with drainedAt := some now } else none

/-- The monitor collects the status of a program that ended by itself while it was watching, or
finds that there is none. -/
def reap (now : Time) (p : Process) : Option Process :=
  match p.phase, p.ended with
  | .watching, some outcome => some { p with phase := .draining outcome now }
  | _, _ => none

/-- The monitor takes a request; the next caller in line gets the place. -/
def take (p : Process) : Option Process :=
  match p.phase, p.slot with
  | .watching, some i =>
    match p.queue with
    | [] => some { p with phase := .killing (some i), slot := none }
    | j :: rest =>
      some { p with
        phase := .killing (some i)
        slot := some j
        queue := rest
        calls := p.calls.set j .requested }
  | _, _ => none

/-- The monitor kills a program whose process nobody holds: no handle is left, and no caller. -/
def abandon (held : Bool) (p : Process) : Option Process :=
  match p.phase with
  | .watching =>
    if !held && p.isIdle && p.slot.isNone then some { p with phase := .killing none } else none
  | .killing _ | .draining _ _ | .finished _ _ _ => none

/-- The monitor reaps the program that it killed, and answers the caller who wanted that. -/
def collect (now : Time) (p : Process) : Option Process :=
  match p.phase with
  | .killing none => some { p with phase := .draining .killed now }
  | .killing (some i) => some { p.setCall i .waiting with phase := .draining .killed now }
  | .watching | .draining _ _ | .finished _ _ _ => none

/-- The program could not be killed. The monitor gives it up all the same, and the caller who wanted
it killed does not wait for its end. -/
def resist (now : Time) (p : Process) : Option Process :=
  match p.phase with
  | .killing none => some { p with phase := .draining .killed now }
  | .killing (some i) => some { p.setCall i .returned with phase := .draining .killed now }
  | .watching | .draining _ _ | .finished _ _ _ => none

/-- The monitor is done when the output has ended, or the drain grace is over. -/
def publish (now : Time) (p : Process) : Option Process :=
  match p.phase with
  | .draining outcome since =>
    if p.drainedAt.isSome || since + drainGrace ≤ now then
      some { p with phase := .finished outcome since now }
    else none
  | .watching | .killing _ | .finished _ _ _ => none

/-- A caller looks at the process: it only waits if the program was reaped already. -/
def look (p : Process) (i : CallId) : Option Process :=
  if p.calls[i]? = some .entered then
    some (p.setCall i (if p.reaped?.isSome then .waiting else .sending))
  else none

/-- A caller sends its request: into the monitor's place if it is free, else to the end of the
line. A monitor that is done takes none. -/
def send (p : Process) (i : CallId) : Option Process :=
  if p.calls[i]? = some .sending then
    if p.exited?.isSome then some (p.setCall i .waiting)
    else if p.slot = none then some { p.setCall i .requested with slot := some i }
    else some { p.setCall i .queued with queue := p.queue ++ [i] }
  else none

/-- A caller whose request was not taken learns that the monitor is done. -/
def giveUp (p : Process) (i : CallId) : Option Process :=
  if (p.calls[i]? = some .requested || p.calls[i]? = some .queued) && p.exited?.isSome then
    some (p.setCall i .waiting)
  else none

def leave (p : Process) (i : CallId) : Option Process :=
  if p.calls[i]? = some .waiting && p.exited?.isSome then some (p.setCall i .returned) else none

/-- What an action makes of a process, if it can happen; `held` says whether somebody holds the
process. -/
def step (held : Bool) (now : Time) (p : Process) : Action → Option Process
  | .terminate => some p.terminate
  | .finish status => p.finish status
  | .drain => p.drain now
  | .reap => p.reap now
  | .take => p.take
  | .abandon => p.abandon held
  | .collect => p.collect now
  | .resist => p.resist now
  | .publish => p.publish now
  | .look i => p.look i
  | .send i => p.send i
  | .giveUp i => p.giveUp i
  | .leave i => p.leave i

/-- Whether a caller is done. -/
def hasReturned (p : Process) (i : CallId) : Bool := p.calls[i]? = some .returned

/-- The number of callers, which the next one gets as its own. -/
def nextCall (p : Process) : CallId := p.calls.length

/-- Whether nothing will happen to the process any more unless somebody asks for it. -/
def isOver (p : Process) : Bool := p.exited?.isSome && p.isIdle

/-- What the monitor and the callers could do next, in the order of their turns. -/
def turns (p : Process) : List Action :=
  if p.isOver then []
  else
    [.reap, .take, .abandon, .collect, .publish] ++
      (List.range p.calls.length).flatMap fun i => [.look i, .send i, .giveUp i, .leave i]

end Process

/-- What is found out about a program that has to survive for some time. -/
inductive Verdict where
  | settled
  | failed (outcome : Outcome)
  deriving DecidableEq

namespace Process

/-- The verdict on a process at a time, once there is one: it fails as soon as it is reaped, before
its output is read, and has settled if it was not reaped by the deadline. -/
def verdict? (now deadline : Time) (p : Process) : Option Verdict :=
  match p.reaped? with
  | some outcome => some (.failed outcome)
  | none => if deadline ≤ now then some .settled else none

end Process

end OnionPool
