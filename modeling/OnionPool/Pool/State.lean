import OnionPool.Pair.Life
import OnionPool.Proxy.Step

/-!
# The state of the pool

The pool admits pairs up to its capacity, each with a task of its own that drives it from the lease
of its ports to its teardown, and replaces the pairs that are done. Only pairs that serve are in the
registry of the reverse proxy.
-/

namespace OnionPool

namespace Pool

/-- What the pool has counted. -/
structure Stats where
  /-- The pairs that serve, or are taken down after they served. -/
  live : Nat := 0
  started : Nat := 0
  retired : Nat := 0
  launchFailures : Nat := 0
  deriving DecidableEq

/-- What a task is about to do, or waits for, in the state in which its pair is. -/
inductive Activity where
  /-- The work of the state begins. -/
  | entering
  /-- One port is leased, and another one is needed. -/
  | leasing (circuit : Port)
  | starting (s : Startup)
  | started (p : Pair)
  /-- The pair started too late, and is taken down. -/
  | discarding (chores : List Chore)
  /-- The attempt has failed, and a pause is needed. -/
  | failing
  /-- The pause lasts until a time. -/
  | pausing (until_ : Time)
  | serving (since : Time)
  /-- The pair is taken down. -/
  | tearing (chores : List Chore)
  /-- The work of the state has ended with an event. -/
  | leaving (e : PairEvent)
  /-- The task is over, and its permit is to be returned. -/
  | returning
  /-- The permit was returned. -/
  | gone

/-- A task: the state of its pair, the leased ports before the start, and the pair after it. -/
structure Task where
  state : PairState := .allocating
  leases : Option (Port × Port) := none
  pair : Option Pair := none
  activity : Activity := .entering

/-- How far the pool has come. -/
inductive Runner where
  /-- The reverse proxy is not up yet. -/
  | waiting
  /-- Pairs are admitted. -/
  | admitting
  /-- No pair is admitted any more, and those that are there retire. -/
  | draining
  /-- All pairs have retired. -/
  | returned
  deriving DecidableEq

/-- What the pool reports. -/
inductive Note where
  /-- A pair went from one state to another. -/
  | moved (source : PairState) (event : PairEvent) (target : PairState)
  /-- A pair met an event that means nothing in its state. -/
  | stuck (state : PairState) (event : PairEvent)
  /-- No port was left. -/
  | leaseFailed (failure : Failure)
  /-- A pair did not start. -/
  | startFailed (failure : Failure)
  /-- A pair stops serving. -/
  | stopping (circuitPort forwarderPort : Port) (reason : RetireReason)

/-- What does not change while the pool runs. -/
structure Plan where
  size : Nat
  lifetime : Time
  backoff : Time

end Pool

open Pool in
/-- The pool with its pairs and the reverse proxy. -/
structure Pool where
  plan : Plan
  proxy : Proxy
  site : Site
  stop : StopSignal := .new
  /-- The permits that no task holds. -/
  available : Nat := plan.size
  runner : Runner := .waiting
  tasks : List Task := []
  stats : Stats := {}
  /-- What the pool has reported, the last first. -/
  notes : List Note := []

namespace Pool

/-- The longest addition to the pause after a failed attempt: a fifth of it, so that pairs that
fail together do not try again together. -/
def maxJitter (backoff : Time) : Time := backoff / 5

def Task.holdsPermit (t : Task) : Bool :=
  match t.activity with
  | .gone => false
  | _ => true

end Pool

end OnionPool
