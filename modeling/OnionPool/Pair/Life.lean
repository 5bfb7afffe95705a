import OnionPool.Pair.Startup
import OnionPool.Pair.State

/-!
# One pair from start to teardown

A pair that has started serves until the first reason to retire it: the signal to stop, the end of
one of its processes, or the end of its lifetime. Then it is taken down.
-/

namespace OnionPool

namespace Pair

/-- Whether there is a reason to retire a pair that serves since some time. -/
def mayRetire (now : Time) (stop : StopSignal) (lifetime since : Time) (p : Pair) (site : Site) :
    RetireReason → Bool
  | .shutdown => stop.isOver
  | .circuitExited => site.isReaped p.circuit
  | .forwarderExited => site.isReaped p.forwarder
  | .expired => since + lifetime ≤ now

/-- The reasons, in the order in which they are looked at. -/
def reasons : List RetireReason := [.shutdown, .circuitExited, .forwarderExited, .expired]

end Pair

/-- How far a pair has come. -/
inductive PairLife.Stage where
  | starting (s : Startup)
  | serving (p : Pair) (since : Time)
  | leaving (reason : RetireReason) (chores : List Chore)
  | tornDown
  | failed (cause : Failure)

/-- A moment in the life of a pair that others hear of. -/
inductive PairLife.Milestone where
  | started (p : Pair)
  | failed (cause : Failure)
  | retired (reason : RetireReason)
  | tornDown

/-- A pair by itself. -/
structure PairLife where
  stage : PairLife.Stage
  site : Site
  lifetime : Time
  stop : StopSignal := .new
  /-- What others heard of it, the last first. -/
  journal : List (Time × PairLife.Milestone) := []

namespace PairLife

inductive Action where
  | raise
  /-- Nobody is left who could raise the signal to stop. -/
  | desert
  | worker (w : WorkerId) (a : Process.Action)
  | startup (a : Startup.Action)
  /-- The start is over. -/
  | conclude
  /-- There is a reason to retire the pair. -/
  | retire (reason : RetireReason)
  /-- A chore of the teardown is done. -/
  | chore
  /-- The directory that is next to be removed cannot be. -/
  | forgo (left : Contents)

/-- Whether an action happens as soon as it can. -/
def Action.isUrgent : Action → Bool
  | raise | desert => false
  | worker _ a => a.isUrgent
  | startup _ | conclude | retire _ | chore | forgo _ => true

/-- The pair at a new stage that others hear of. -/
def pass (l : PairLife) (now : Time) (stage : Stage) (m : Milestone) : PairLife :=
  { l with stage, journal := (now, m) :: l.journal }

/-- What an action makes of a pair, if it can happen. -/
def step (now : Time) (l : PairLife) : Action → Option PairLife
  | .raise => some { l with stop := l.stop.raise }
  | .desert => some { l with stop := l.stop.desert }
  | .worker w a => (l.site.processStep now w a).map fun site => { l with site }
  | .startup a =>
    match l.stage with
    | .starting s =>
      (s.step now l.stop l.site a).map fun (s, site) => { l with stage := .starting s, site }
    | _ => none
  | .conclude =>
    match l.stage with
    | .starting s =>
      match s.pair?, s.failure? with
      | some p, _ => some (l.pass now (.serving p now) (.started p))
      | none, some cause => some (l.pass now (.failed cause) (.failed cause))
      | none, none => none
    | _ => none
  | .retire reason =>
    match l.stage with
    | .serving p since =>
      if p.mayRetire now l.stop l.lifetime since l.site reason then
        some (l.pass now (.leaving reason p.teardown) (.retired reason))
      else none
    | _ => none
  | .chore =>
    match l.stage with
    | .leaving _ [] => some (l.pass now .tornDown .tornDown)
    | .leaving reason chores =>
      (Chore.step chores l.site).map fun (rest, site) =>
        { l with stage := .leaving reason rest, site }
    | _ => none
  | .forgo left =>
    match l.stage with
    | .leaving reason chores =>
      (Chore.forgo left chores l.site).map fun (rest, site) =>
        { l with stage := .leaving reason rest, site }
    | _ => none

def machine : Machine PairLife Action := ⟨step, Action.isUrgent⟩

end PairLife

end OnionPool
