import OnionPool.Log.Stream
import OnionPool.Process.Supervision
import OnionPool.Rehearsal.Kind
import OnionPool.Rehearsal.Play

/-!
# Rehearsing the supervision of a program

A stand-in ends within its settle window, or survives it and ends when it is told to; it writes its
output when it ends by itself. A program that it has left behind may keep the output open.
-/

namespace OnionPool.SupervisionRehearsal

/-- What is launched. -/
inductive Program where
  /-- It ends within its settle window. -/
  | early
  /-- It survives its settle window. -/
  | late
  | refused (error : IoError)

/-- What is rehearsed. -/
structure Scenario where
  spec : LaunchSpec
  program : Program
  /-- How the program ends by itself. -/
  status : ExitStatus
  /-- What it writes. -/
  output : List UInt8

/-- The clock, the supervised program, and whether another program keeps the output open. -/
structure Stage where
  now : Time
  supervision : Supervision
  lingers : Bool

/-- The stand-in as the process sees it. -/
def kind (s : Scenario) : Kind :=
  match s.program with
  | .early => .ends s.status
  | .late | .refused _ => .runs 0

/-- What happens to the process by itself; the output stays open while another program has it. -/
def fate (s : Scenario) (lingers : Bool) (p : Process) : List Process.Action :=
  ((kind s).fate p).filter fun a => !(lingers && a = .drain)

/-- What could happen, in the order in which it is tried. -/
def turns (s : Scenario) (lingers : Bool) (x : Supervision) : List Supervision.Action :=
  let start : Supervision.Action :=
    match s.program with
    | .refused error => .refuse error
    | .early | .late => .spawn 1
  start :: (fate s lingers x.process ++ x.process.turns).map .process ++
    (List.range x.subscribers.length).map .observe ++ [.judge]

def rehearsal (s : Scenario) (lingers : Bool) : Rehearsal Supervision Supervision.Action :=
  ⟨Supervision.machine, turns s lingers⟩

def isJudged (x : Supervision) : Bool :=
  match x.stage with
  | .spawning | .settling _ => false
  | .running | .dropped | .failed _ _ => true

/-- The program from its spawn until the verdict on its launch. -/
def start (s : Scenario) (lingers : Bool) : Stage :=
  let r := rehearsal s lingers
  let x := r.settle 0 { spec := s.spec }
  let (now, x) := r.advanceUntil isJudged (s.spec.settle.ticks + 1) (0, x)
  ⟨now, x, lingers⟩

/-- The outcomes of both signals, as far as they have fired. -/
def signals (x : Stage) : Option Outcome × Option Outcome :=
  (x.supervision.process.reaped?, x.supervision.process.exited?)

/-- The entries that the output becomes, if it was written. -/
def log (s : Scenario) (x : Stage) : List Log.Entry :=
  if x.supervision.process.ended.isSome then Log.entries s.spec.format s.output else []

/-- What is done from outside. -/
inductive Step where
  | finish
  /-- The output is not kept open any more. -/
  | release
  | advance (ticks : Nat)
  | wait
  | terminate
  /-- Both signals are awaited. -/
  | fired
  | drop
  | look

/-- What comes of it. -/
inductive Answer where
  | nothing
  | outcome (o : Option Outcome)
  | outcomes (reaped exited : Option Outcome)
  | terminated

/-- Something is done from outside, and all that follows at once. -/
def act (s : Scenario) (x : Stage) (a : Supervision.Action) : Stage :=
  { x with supervision := (rehearsal s x.lingers).act x.now x.supervision a }

/-- The clock moves on. -/
def advance (s : Scenario) (ticks : Nat) (x : Stage) : Stage :=
  let (now, y) := (rehearsal s x.lingers).advance ticks (x.now, x.supervision)
  { x with now, supervision := y }

/-- The clock moves on until the process is done with. -/
def await (s : Scenario) (x : Stage) : Stage :=
  let finished (y : Supervision) : Bool := y.process.isOver
  let (now, y) :=
    (rehearsal s x.lingers).advanceUntil finished (Process.drainGrace + 1) (x.now, x.supervision)
  { x with now, supervision := y }

/-- What a subscriber has observed. -/
def observed? (x : Stage) (i : Nat) : Option Outcome :=
  x.supervision.subscribers[i]?.bind (·.observed)

/-- The program after a step from outside, and what comes of it. -/
def perform (s : Scenario) (x : Stage) : Step → Answer × Stage
  | .finish =>
    let y := act s x (.process (.finish (some s.status)))
    (.nothing, if x.lingers then y else await s y)
  | .release =>
    let y := { x with lingers := false }
    (.nothing, { y with supervision := (rehearsal s false).settle y.now y.supervision })
  | .advance ticks => (.nothing, advance s ticks x)
  | .wait =>
    let y := await s (act s x (.subscribe .exited))
    (.outcome (observed? y x.supervision.subscribers.length), y)
  | .terminate => (.terminated, await s (act s x (.process .terminate)))
  | .fired =>
    let i := x.supervision.subscribers.length
    let y := await s (act s (act s x (.subscribe .reaped)) (.subscribe .exited))
    (.outcomes (observed? y i) (observed? y (i + 1)), y)
  | .drop => (.nothing, await s (act s x .drop))
  | .look => (.nothing, x)

end OnionPool.SupervisionRehearsal
