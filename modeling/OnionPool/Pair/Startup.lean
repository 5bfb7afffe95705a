import OnionPool.Failure
import OnionPool.Pair.Site
import OnionPool.StopSignal

/-!
# Starting a pair

The circuit starts first, and the forwarder when the circuit has settled. Whatever goes wrong, and a
stop while one of them settles, is undone before the start fails: a forwarder that does not start
takes the circuit down with it, the directories are removed, and the ports released last.
-/

namespace OnionPool

/-- A pair that runs. -/
structure Pair where
  circuitPort : Port
  forwarderPort : Port
  circuit : WorkerId
  forwarder : WorkerId
  deriving DecidableEq

/-- What is to be done to take a pair down: the forwarder and the circuit are terminated, then their
directories are removed, and their ports are released last. -/
def Pair.teardown (p : Pair) : List Chore := [
  .stop p.forwarder,
  .stop p.circuit,
  .clear ⟨.forwarder, p.forwarderPort⟩,
  .clear ⟨.circuit, p.circuitPort⟩,
  .release p.forwarderPort,
  .release p.circuitPort]

/-- How far the start of a pair has come. While the forwarder starts, the circuit is there. -/
inductive Startup.Stage where
  /-- The next program is to be prepared. -/
  | preparing (circuit : Option WorkerId)
  /-- The next program is to be spawned. -/
  | spawning (circuit : Option WorkerId)
  /-- The process has to survive until the deadline. -/
  | settling (circuit : Option WorkerId) (w : WorkerId) (deadline : Time)
  /-- The start has failed, and is undone. -/
  | undoing (chores : List Chore) (cause : Failure)
  /-- The start has failed. -/
  | failed (cause : Failure)
  /-- Both programs run. -/
  | ready (circuit forwarder : WorkerId)

/-- The start of a pair on two ports. -/
structure Startup where
  circuitPort : Port
  forwarderPort : Port
  stage : Startup.Stage := .preparing none

namespace Startup

inductive Action where
  /-- The next program is prepared, with some files in its directory. -/
  | prepare (contents : Contents)
  /-- The next program cannot be prepared; perhaps its directory is there already. -/
  | reject (left : Option Contents) (cause : Failure)
  /-- The next program is spawned, and has to survive for some time. -/
  | spawn (settle : Time)
  | refuse (error : IoError)
  | interrupt
  /-- The verdict on a process is found, or a chore is done. -/
  | proceed
  /-- The directory that is next to be removed cannot be, and some files are left in it. -/
  | forgo (left : Contents)

/-- The program that is next, or settles. -/
def seat (s : Startup) (circuit : Option WorkerId) : Seat :=
  match circuit with
  | none => ⟨.circuit, s.circuitPort⟩
  | some _ => ⟨.forwarder, s.forwarderPort⟩

/-- What is to be undone when a program did not start. -/
def undo (s : Startup) (circuit : Option WorkerId) : List Chore :=
  let ports : List Chore := [.release s.forwarderPort, .release s.circuitPort]
  match circuit with
  | none => .clear ⟨.circuit, s.circuitPort⟩ :: ports
  | some w =>
    .clear ⟨.forwarder, s.forwarderPort⟩ :: .stop w :: .clear ⟨.circuit, s.circuitPort⟩ :: ports

/-- A start that has failed for a cause. -/
def fail (s : Startup) (circuit : Option WorkerId) (cause : Failure) : Startup :=
  { s with stage := .undoing (s.undo circuit) cause }

/-- A failure to launch a program. -/
def launchFailure (seat : Seat) (reason : String) : Failure :=
  .launch seat.role.service seat.port reason

/-- What follows the verdict that a process has settled. -/
def settled (circuit : Option WorkerId) (w : WorkerId) : Stage :=
  match circuit with
  | none => .preparing (some w)
  | some c => .ready c w

/-- The verdict on the process that settles. -/
def judge (now : Time) (s : Startup) (site : Site) : Option (Startup × Site) :=
  match s.stage with
  | .settling circuit w deadline =>
    match (site.process? w).bind (·.verdict? now deadline) with
    | some .settled => some ({ s with stage := settled circuit w }, site)
    | some (.failed outcome) =>
      some (s.fail circuit (launchFailure (s.seat circuit) outcome.text), site.drop w)
    | none => none
  | _ => none

/-- What an action makes of a start and of what pairs share, if it can happen. -/
def step (now : Time) (stop : StopSignal) (s : Startup) (site : Site) :
    Action → Option (Startup × Site)
  | .prepare contents =>
    match s.stage with
    | .preparing circuit =>
      let seat := s.seat circuit
      some ({ s with stage := .spawning circuit }, (site.noteLaunch now seat).put seat contents)
    | _ => none
  | .reject left cause =>
    match s.stage with
    | .preparing circuit =>
      let seat := s.seat circuit
      let noted := site.noteLaunch now seat
      some (s.fail circuit cause, left.elim noted (noted.put seat))
    | _ => none
  | .spawn settle =>
    match s.stage with
    | .spawning circuit =>
      some ({ s with stage := .settling circuit site.workers.length (now + settle) },
        site.spawn (s.seat circuit))
    | _ => none
  | .refuse error =>
    match s.stage with
    | .spawning circuit =>
      some (s.fail circuit (launchFailure (s.seat circuit) error.text), site)
    | _ => none
  | .interrupt =>
    if stop.isOver then
      match s.stage with
      | .spawning circuit => some (s.fail circuit .shuttingDown, site)
      | .settling circuit w _ => some (s.fail circuit .shuttingDown, site.drop w)
      | _ => none
    else none
  | .proceed =>
    match s.stage with
    | .settling _ _ _ => s.judge now site
    | .undoing [] cause => some ({ s with stage := .failed cause }, site)
    | .undoing chores cause =>
      (Chore.step chores site).map fun (rest, site) =>
        ({ s with stage := .undoing rest cause }, site)
    | .preparing _ | .spawning _ | .failed _ | .ready _ _ => none
  | .forgo left =>
    match s.stage with
    | .undoing chores cause =>
      (Chore.forgo left chores site).map fun (rest, site) =>
        ({ s with stage := .undoing rest cause }, site)
    | _ => none

/-- The pair, once both programs run. -/
def pair? (s : Startup) : Option Pair :=
  match s.stage with
  | .ready circuit forwarder => some ⟨s.circuitPort, s.forwarderPort, circuit, forwarder⟩
  | _ => none

/-- Why the start has failed, once that is undone. -/
def failure? (s : Startup) : Option Failure :=
  match s.stage with
  | .failed cause => some cause
  | _ => none

end Startup

end OnionPool
