import OnionPool.Launch.Spec
import OnionPool.Process.Basic

/-!
# The supervision of one program

A program is spawned and has to survive its settle window; then its owner may ask for its
termination, any number of times, and drop it at any time. A program that ends in its settle window
was not launched. The verdict is found from the reap, never from the end of the output, which
another program may keep open.

Whoever wants to know how the program ended subscribes to one of its two signals, at any time, and
observes the outcome when the signal has fired. A caller who asked for termination learns whether
the program could be killed.
-/

namespace OnionPool

/-- The signals of a process. -/
inductive Signal where
  /-- The program was reaped. -/
  | reaped
  /-- The process is done with. -/
  | exited
  deriving DecidableEq

namespace Process

/-- The outcome that a signal shows, once it has fired. -/
def signal? (p : Process) : Signal → Option Outcome
  | .reaped => p.reaped?
  | .exited => p.exited?

end Process

/-- Somebody who waits for a signal, or has observed the outcome that it shows. -/
structure Subscriber where
  signal : Signal
  observed : Option Outcome := none
  deriving DecidableEq

/-- How far the launch of a program has come. -/
inductive Supervision.Stage where
  /-- It is about to be spawned. -/
  | spawning
  /-- It was spawned and has to survive until the deadline. -/
  | settling (deadline : Time)
  /-- It was launched, and its owner has it. -/
  | running
  /-- Its owner dropped it. -/
  | dropped
  /-- It was not launched. -/
  | failed (failure : Failure) (at_ : Time)
  deriving DecidableEq

/-- A program under supervision. -/
structure Supervision where
  spec : LaunchSpec
  stage : Supervision.Stage := .spawning
  /-- The number of the process, once it was spawned. -/
  pid : Nat := 0
  process : Process := .fresh
  subscribers : List Subscriber := []
  /-- The calls for termination that have failed, the last one first. -/
  failures : List (CallId × Failure) := []

namespace Supervision

/-- What can happen. -/
inductive Action where
  | spawn (pid : Nat)
  | refuse (error : IoError)
  /-- The verdict on the launch is found. -/
  | judge
  | drop
  | subscribe (signal : Signal)
  /-- A subscriber observes the outcome that its signal shows. -/
  | observe (i : Nat)
  /-- The program cannot be killed. -/
  | resist (error : IoError)
  | process (a : Process.Action)

/-- Whether an action happens as soon as it can. -/
def Action.isUrgent : Action → Bool
  | spawn _ | refuse _ | judge | observe _ | resist _ => true
  | drop | subscribe _ => false
  | process a => a.isUrgent

def isHeld (s : Supervision) : Bool :=
  match s.stage with
  | .spawning | .settling _ | .running => true
  | .dropped | .failed _ _ => false

def isSpawned (s : Supervision) : Bool :=
  match s.stage with
  | .spawning => false
  | .settling _ | .running | .dropped => true
  | .failed _ _ => s.process.reaped?.isSome

/-- The launch once there is a verdict. -/
def judge (now : Time) (s : Supervision) : Option Supervision :=
  match s.stage with
  | .settling deadline =>
    match s.process.verdict? now deadline with
    | some .settled => some { s with stage := .running }
    | some (.failed outcome) => some { s with stage := .failed (s.spec.failure outcome.text) now }
    | none => none
  | .spawning | .running | .dropped | .failed _ _ => none

/-- What happens to the process: termination is asked for by the owner only. If the program cannot
be killed, there is an error to be told, and so that is an action of its own. -/
def processStep (now : Time) (s : Supervision) (a : Process.Action) : Option Supervision :=
  if s.isSpawned && (a != .terminate || s.stage = .running) && a != .resist then
    (s.process.step s.isHeld now a).map fun p => { s with process := p }
  else none

/-- Somebody subscribes to a signal of a program that was spawned. -/
def subscribe (s : Supervision) (signal : Signal) : Option Supervision :=
  if s.isSpawned then some { s with subscribers := s.subscribers ++ [⟨signal, none⟩] } else none

/-- A subscriber that waits observes the outcome, once its signal has fired. -/
def observe (s : Supervision) (i : Nat) : Option Supervision :=
  match s.subscribers[i]? with
  | some ⟨signal, none⟩ =>
    (s.process.signal? signal).map fun outcome =>
      { s with subscribers := s.subscribers.set i ⟨signal, some outcome⟩ }
  | some ⟨_, some _⟩ | none => none

/-- The program cannot be killed; the caller who wanted that learns it. -/
def resist (now : Time) (s : Supervision) (error : IoError) : Option Supervision :=
  (s.process.resist now).map fun process =>
    match s.process.phase with
    | .killing (some i) =>
      let failure : Failure := .termination s.spec.service s.pid error.text
      { s with process, failures := (i, failure) :: s.failures }
    | _ => { s with process }

/-- What a caller who asked for termination is told, once it is done. -/
def answer? (s : Supervision) (i : CallId) : Option (Except Failure Unit) :=
  if s.process.hasReturned i then
    match s.failures.lookup i with
    | some failure => some (.error failure)
    | none => some (.ok ())
  else none

/-- What an action makes of a supervised program, if it can happen. -/
def step (now : Time) (s : Supervision) : Action → Option Supervision
  | .spawn pid =>
    if s.stage = .spawning then
      some { s with stage := .settling (now + s.spec.settle.ticks), pid }
    else none
  | .refuse error =>
    if s.stage = .spawning then some { s with stage := .failed (s.spec.failure error.text) now }
    else none
  | .judge => s.judge now
  | .drop => if s.stage = .running then some { s with stage := .dropped } else none
  | .subscribe signal => s.subscribe signal
  | .observe i => s.observe i
  | .resist error => s.resist now error
  | .process a => s.processStep now a

def machine : Machine Supervision Action := ⟨step, Action.isUrgent⟩

end Supervision

end OnionPool
