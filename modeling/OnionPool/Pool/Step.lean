import OnionPool.Pool.State

/-!
# What happens in the pool

The actions of the pool, its tasks, and what surrounds them. A task works on its pair until it has
to wait; at every point where it could be interrupted by another one, a new action begins.
-/

namespace OnionPool.Pool

/-- What a task can do. -/
inductive TaskAction where
  /-- It goes on with what it is about to do. -/
  | proceed
  /-- The start of its pair goes on. -/
  | startup (a : Startup.Action)
  /-- There is a reason to retire its pair. -/
  | retire (reason : RetireReason)
  /-- It pauses, for the usual time and an addition. -/
  | pause (jitter : Time)
  /-- Its pause is ended by the signal to stop. -/
  | quit
  /-- The directory of its pair that is next to be removed cannot be. -/
  | forgo (left : Contents)

/-- What can happen in the pool. -/
inductive Action where
  | raise
  /-- Nobody is left who could raise the signal to stop. -/
  | desert
  /-- Something happens to the reverse proxy. -/
  | proxy (a : Proxy.Action)
  /-- Something happens to a process of a pair. -/
  | worker (w : WorkerId) (a : Process.Action)
  /-- The pool begins to admit pairs. -/
  | begin
  | admitPair
  /-- The signal to stop ends the admission. -/
  | close
  | finish
  | task (i : Nat) (a : TaskAction)

/-- Whether an action happens as soon as it can. -/
def Action.isUrgent : Action → Bool
  | raise | desert => false
  | proxy a => a.isUrgent
  | worker _ a => a.isUrgent
  | begin | admitPair | close | finish | task _ _ => true

def note (p : Pool) (n : Note) : Pool := { p with notes := n :: p.notes }

/-- The pool after a failed attempt to start a pair. -/
def noteFailure (p : Pool) (n : Note) : Pool :=
  { p.note n with stats := { p.stats with launchFailures := p.stats.launchFailures + 1 } }

/-- A task takes down a pair that served: it is removed from the registry first. -/
def takeDown (p : Pool) (t : Task) (pair : Pair) : Task × Pool :=
  ({ t with pair := none, activity := .tearing pair.teardown },
    { p with proxy := p.proxy.deregister pair.forwarderPort })

/-- The failure to lease a port. -/
def leaseFailure (p : Pool) : Failure :=
  .portsExhausted p.site.ports.range.floor p.site.ports.range.ceiling

/-- The allocator after some change. -/
def setPorts (p : Pool) (ports : PortAllocator) : Pool := { p with site := { p.site with ports } }

/-- A task without ports leases its first one, unless the pool is to stop. -/
def enterAllocating (p : Pool) (t : Task) : Task × Pool :=
  if p.stop.raised then ({ t with activity := .leaving .shutdown }, p)
  else
    let (port, ports) := p.site.ports.lease
    let q := p.setPorts ports
    match port with
    | some circuit => ({ t with activity := .leasing circuit }, q)
    | none => ({ t with activity := .failing }, q.noteFailure (.leaseFailed p.leaseFailure))

/-- A task with one port leases the second one, or gives the first back. -/
def leaseSecond (p : Pool) (t : Task) (circuit : Port) : Task × Pool :=
  let (port, ports) := p.site.ports.lease
  let q := p.setPorts ports
  match port with
  | some forwarder =>
    ({ t with leases := some (circuit, forwarder), activity := .leaving .portsLeased }, q)
  | none =>
    ({ t with activity := .failing },
      (q.setPorts (ports.release circuit)).noteFailure (.leaseFailed p.leaseFailure))

/-- The work of a state begins. -/
def enter (now : Time) (p : Pool) (t : Task) : Task × Pool :=
  match t.state with
  | .allocating => p.enterAllocating t
  | .starting =>
    match t.leases with
    -- Without leases there is nothing to start, and no pause either.
    | none => ({ t with activity := .leaving .launchFailed }, p)
    | some (circuit, forwarder) =>
      ({ t with leases := none, activity := .starting ⟨circuit, forwarder, .preparing none⟩ }, p)
  | .registered =>
    match t.pair with
    | none => ({ t with activity := .leaving .retire }, p)
    | some pair =>
      ({ t with activity := .serving now },
        { p with
          proxy := p.proxy.register pair.forwarderPort
          stats := { p.stats with live := p.stats.live + 1 } })
  | .retiring =>
    match t.pair with
    | none => ({ t with activity := .leaving .tornDown }, p)
    | some pair => p.takeDown t pair
  | .done =>
    match t.pair with
    | none => ({ t with activity := .returning }, p)
    -- Only a move that means nothing in its state ends the life of a pair that still serves.
    | some pair => p.takeDown t pair

def concludeStart (p : Pool) (t : Task) (s : Startup) : Option (Task × Pool) :=
  match s.stage with
  | .ready circuit forwarder =>
    some ({ t with activity := .started ⟨s.circuitPort, s.forwarderPort, circuit, forwarder⟩ }, p)
  | .failed .shuttingDown => some ({ t with activity := .leaving .shutdown }, p)
  | .failed cause => some ({ t with activity := .failing }, p.noteFailure (.startFailed cause))
  | _ => none

/-- A pair that has started serves, unless the pool is to stop. -/
def concludeStarted (p : Pool) (t : Task) (pair : Pair) : Task × Pool :=
  if p.stop.raised then ({ t with activity := .discarding pair.teardown }, p)
  else
    ({ t with pair := some pair, activity := .leaving .launched },
      { p with stats := { p.stats with started := p.stats.started + 1 } })

/-- The next chore of a task; when none is left, `last` is done. -/
def doChore (p : Pool) (chores : List Chore) (again : List Chore → Task)
    (last : Unit → Task × Pool) : Option (Task × Pool) :=
  match chores with
  | [] => some (last ())
  | chores => (Chore.step chores p.site).map fun (rest, site) => (again rest, { p with site })

/-- The pair moves to its next state, or its life ends if the event means nothing. -/
def leave (p : Pool) (t : Task) (e : PairEvent) : Task × Pool :=
  match t.state.next? e with
  | some s => ({ t with state := s, activity := .entering }, p.note (.moved t.state e s))
  | none => ({ t with state := .done, activity := .entering }, p.note (.stuck t.state e))

/-- A pair that served was taken down. -/
def retirePair (p : Pool) : Pool :=
  { p with stats := { p.stats with live := p.stats.live - 1, retired := p.stats.retired + 1 } }

/-- A task goes on with what it is about to do. -/
def proceed (now : Time) (p : Pool) (t : Task) : Option (Task × Pool) :=
  match t.activity with
  | .entering => some (p.enter now t)
  | .leasing circuit => some (p.leaseSecond t circuit)
  | .starting s => p.concludeStart t s
  | .started pair => some (p.concludeStarted t pair)
  | .discarding chores =>
    p.doChore chores (fun rest => { t with activity := .discarding rest })
      fun _ => ({ t with activity := .leaving .shutdown }, p)
  | .pausing until_ =>
    if until_ ≤ now then some ({ t with activity := .leaving .launchFailed }, p) else none
  | .tearing chores =>
    p.doChore chores (fun rest => { t with activity := .tearing rest })
      fun _ => ({ t with activity := .leaving .tornDown }, p.retirePair)
  | .leaving e => some (p.leave t e)
  | .returning => some ({ t with activity := .gone }, { p with available := p.available + 1 })
  | .failing | .serving _ | .gone => none

/-- What an action makes of a task and the pool, if it can happen. -/
def taskStep (now : Time) (p : Pool) (t : Task) : TaskAction → Option (Task × Pool)
  | .proceed => p.proceed now t
  | .startup a =>
    match t.activity with
    | .starting s =>
      (s.step now p.stop p.site a).map fun (s, site) =>
        ({ t with activity := .starting s }, { p with site })
    | _ => none
  | .retire reason =>
    match t.activity, t.pair with
    | .serving since, some pair =>
      if pair.mayRetire now p.stop p.plan.lifetime since p.site reason then
        some ({ t with activity := .leaving .retire },
          p.note (.stopping pair.circuitPort pair.forwarderPort reason))
      else none
    | _, _ => none
  | .pause jitter =>
    match t.activity with
    | .failing =>
      if jitter ≤ maxJitter p.plan.backoff then
        some ({ t with activity := .pausing (now + p.plan.backoff + jitter) }, p)
      else none
    | _ => none
  | .quit =>
    match t.activity with
    | .pausing _ =>
      if p.stop.isOver then some ({ t with activity := .leaving .shutdown }, p) else none
    | _ => none
  | .forgo left =>
    match t.activity with
    | .discarding chores =>
      (Chore.forgo left chores p.site).map fun (rest, site) =>
        ({ t with activity := .discarding rest }, { p with site })
    | .tearing chores =>
      (Chore.forgo left chores p.site).map fun (rest, site) =>
        ({ t with activity := .tearing rest }, { p with site })
    | _ => none

/-- The signal to stop is waited for, and everything else that can happen to the runner. -/
def runnerStep (p : Pool) : Action → Option Pool
  | .begin =>
    if p.runner = .waiting ∧ p.proxy.isUp then some { p with runner := .admitting } else none
  | .admitPair =>
    -- The signal comes first, even if there is a permit.
    if p.runner = .admitting ∧ !p.stop.isOver ∧ 0 < p.available then
      some { p with available := p.available - 1, tasks := p.tasks ++ [{}] }
    else none
  | .close =>
    if p.runner = .admitting ∧ p.stop.isOver then some { p with runner := .draining } else none
  | .finish =>
    if p.runner = .draining ∧ p.tasks.all (!·.holdsPermit) then some { p with runner := .returned }
    else none
  | _ => none

/-- What an action makes of the pool, if it can happen. -/
def step (now : Time) (p : Pool) : Action → Option Pool
  | .raise => some { p with stop := p.stop.raise }
  | .desert => some { p with stop := p.stop.desert }
  | .proxy a => (p.proxy.step now a).map fun proxy => { p with proxy }
  | .worker w a => (p.site.processStep now w a).map fun site => { p with site }
  | .task i a => do
    let t ← p.tasks[i]?
    let (t, q) ← p.taskStep now t a
    some { q with tasks := q.tasks.set i t }
  | a => p.runnerStep a

def machine : Machine Pool Action := ⟨step, Action.isUrgent⟩

end OnionPool.Pool
