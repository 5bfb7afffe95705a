import OnionPool.Pool.Step
import OnionPool.Proofs.PairStep

/-!
# What one step of a task can be

A task carries a state, the leases, a pair and an activity. Only some combinations of them come up;
from these the step function does exactly the moves listed here. What every task keeps, and what the
pool keeps whatever its tasks do, is proved from the list of moves.

## Structure

- `Task.Proper` lists the combinations that come up.
- `Move` lists the moves of a task, each with its guard and the pool after it.
- `move_of_taskStep` says that the list is complete for proper tasks, `Move.proper` that a move
  leads to a proper task again.
- `Change` lists the steps of the pool, with the moves of its tasks as one of them;
  `Change.task_cases` says what a step is for one task.
-/

namespace OnionPool.Pool

/-! ## The tasks that come up -/

/-- What a task can carry in each of its activities. -/
inductive Task.Proper : Task → Prop where
  | allocating : Proper ⟨.allocating, none, none, .entering⟩
  | leasing (circuit : Port) : Proper ⟨.allocating, none, none, .leasing circuit⟩
  | leased (circuit forwarder : Port) :
      Proper ⟨.allocating, some (circuit, forwarder), none, .leaving .portsLeased⟩
  | launching (circuit forwarder : Port) :
      Proper ⟨.starting, some (circuit, forwarder), none, .entering⟩
  | starting (s : Startup) : Proper ⟨.starting, none, none, .starting s⟩
  | started (pair : Pair) : Proper ⟨.starting, none, none, .started pair⟩
  | discarding (chores : List Chore) : Proper ⟨.starting, none, none, .discarding chores⟩
  /-- An attempt to lease or to start has failed. -/
  | failing (s : PairState) (early : s = .allocating ∨ s = .starting) :
      Proper ⟨s, none, none, .failing⟩
  | pausing (s : PairState) (early : s = .allocating ∨ s = .starting) (until_ : Time) :
      Proper ⟨s, none, none, .pausing until_⟩
  | paused (s : PairState) (early : s = .allocating ∨ s = .starting) :
      Proper ⟨s, none, none, .leaving .launchFailed⟩
  | stopped (s : PairState) (early : s = .allocating ∨ s = .starting) :
      Proper ⟨s, none, none, .leaving .shutdown⟩
  | launched (pair : Pair) : Proper ⟨.starting, none, some pair, .leaving .launched⟩
  | registering (pair : Pair) : Proper ⟨.registered, none, some pair, .entering⟩
  | serving (pair : Pair) (since : Time) : Proper ⟨.registered, none, some pair, .serving since⟩
  | served (pair : Pair) : Proper ⟨.registered, none, some pair, .leaving .retire⟩
  | retiring (pair : Pair) : Proper ⟨.retiring, none, some pair, .entering⟩
  | tearing (chores : List Chore) : Proper ⟨.retiring, none, none, .tearing chores⟩
  | tornDown : Proper ⟨.retiring, none, none, .leaving .tornDown⟩
  | done : Proper ⟨.done, none, none, .entering⟩
  | returning : Proper ⟨.done, none, none, .returning⟩
  | gone : Proper ⟨.done, none, none, .gone⟩

/-! ## The moves -/

/-- The moves of a task in a pool, to a task and a pool. -/
inductive Move (now : Time) (p : Pool) : Task → Task → Pool → Prop where
  -- Leases.
  /-- The pool is to stop, and nothing is leased any more. -/
  | dismiss (raised : p.stop.raised = true) :
      Move now p ⟨.allocating, none, none, .entering⟩
        ⟨.allocating, none, none, .leaving .shutdown⟩ p
  | leaseFirst (circuit : Port) (ports : PortAllocator)
      (lease : p.site.ports.lease = (some circuit, ports)) (unraised : p.stop.raised = false) :
      Move now p ⟨.allocating, none, none, .entering⟩ ⟨.allocating, none, none, .leasing circuit⟩
        (p.setPorts ports)
  | leaseNone (ports : PortAllocator) (lease : p.site.ports.lease = (none, ports))
      (unraised : p.stop.raised = false) :
      Move now p ⟨.allocating, none, none, .entering⟩ ⟨.allocating, none, none, .failing⟩
        ((p.setPorts ports).noteFailure (.leaseFailed p.leaseFailure))
  | leaseSecond (circuit forwarder : Port) (ports : PortAllocator)
      (lease : p.site.ports.lease = (some forwarder, ports)) :
      Move now p ⟨.allocating, none, none, .leasing circuit⟩
        ⟨.allocating, some (circuit, forwarder), none, .leaving .portsLeased⟩ (p.setPorts ports)
  /-- There is no second port, and the first one is given back. -/
  | leaseOne (circuit : Port) (ports : PortAllocator)
      (lease : p.site.ports.lease = (none, ports)) :
      Move now p ⟨.allocating, none, none, .leasing circuit⟩ ⟨.allocating, none, none, .failing⟩
        ((p.setPorts (ports.release circuit)).noteFailure (.leaseFailed p.leaseFailure))
  -- The start of the pair, and what comes of it.
  | launch (circuit forwarder : Port) :
      Move now p ⟨.starting, some (circuit, forwarder), none, .entering⟩
        ⟨.starting, none, none, .starting ⟨circuit, forwarder, .preparing none⟩⟩ p
  | startup (s s' : Startup) (a : Startup.Action) (site : Site)
      (step : s.step now p.stop p.site a = some (s', site)) :
      Move now p ⟨.starting, none, none, .starting s⟩ ⟨.starting, none, none, .starting s'⟩
        { p with site }
  | ready (s : Startup) (circuit forwarder : WorkerId)
      (stage : s.stage = .ready circuit forwarder) :
      Move now p ⟨.starting, none, none, .starting s⟩
        ⟨.starting, none, none,
          .started ⟨s.circuitPort, s.forwarderPort, circuit, forwarder⟩⟩ p
  | interrupted (s : Startup) (stage : s.stage = .failed .shuttingDown) :
      Move now p ⟨.starting, none, none, .starting s⟩
        ⟨.starting, none, none, .leaving .shutdown⟩ p
  | startFails (s : Startup) (cause : Failure) (stage : s.stage = .failed cause)
      (other : cause ≠ .shuttingDown) :
      Move now p ⟨.starting, none, none, .starting s⟩ ⟨.starting, none, none, .failing⟩
        (p.noteFailure (.startFailed cause))
  /-- The pair has started too late. -/
  | discard (pair : Pair) (raised : p.stop.raised = true) :
      Move now p ⟨.starting, none, none, .started pair⟩
        ⟨.starting, none, none, .discarding pair.teardown⟩ p
  | count (pair : Pair) (raised : p.stop.raised = false) :
      Move now p ⟨.starting, none, none, .started pair⟩
        ⟨.starting, none, some pair, .leaving .launched⟩
        { p with stats := { p.stats with started := p.stats.started + 1 } }
  | discardChore (chores rest : List Chore) (site : Site)
      (part : Chore.Part p.site chores rest site) :
      Move now p ⟨.starting, none, none, .discarding chores⟩
        ⟨.starting, none, none, .discarding rest⟩ { p with site }
  | discarded :
      Move now p ⟨.starting, none, none, .discarding []⟩
        ⟨.starting, none, none, .leaving .shutdown⟩ p
  -- The pause after a failure.
  | pause (s : PairState) (early : s = .allocating ∨ s = .starting) (jitter : Time)
      (bound : jitter ≤ maxJitter p.plan.backoff) :
      Move now p ⟨s, none, none, .failing⟩
        ⟨s, none, none, .pausing (now + p.plan.backoff + jitter)⟩ p
  | resume (s : PairState) (early : s = .allocating ∨ s = .starting) (until_ : Time)
      (due : until_ ≤ now) :
      Move now p ⟨s, none, none, .pausing until_⟩ ⟨s, none, none, .leaving .launchFailed⟩ p
  | quit (s : PairState) (early : s = .allocating ∨ s = .starting) (until_ : Time)
      (stopping : p.stop.isOver = true) :
      Move now p ⟨s, none, none, .pausing until_⟩ ⟨s, none, none, .leaving .shutdown⟩ p
  -- The service of the pair, and its teardown.
  | register (pair : Pair) :
      Move now p ⟨.registered, none, some pair, .entering⟩
        ⟨.registered, none, some pair, .serving now⟩
        { p with
          proxy := p.proxy.register pair.forwarderPort
          stats := { p.stats with live := p.stats.live + 1 } }
  | retire (pair : Pair) (since : Time) (reason : RetireReason)
      (due : pair.mayRetire now p.stop p.plan.lifetime since p.site reason = true) :
      Move now p ⟨.registered, none, some pair, .serving since⟩
        ⟨.registered, none, some pair, .leaving .retire⟩
        (p.note (.stopping pair.circuitPort pair.forwarderPort reason))
  | deregister (pair : Pair) :
      Move now p ⟨.retiring, none, some pair, .entering⟩
        ⟨.retiring, none, none, .tearing pair.teardown⟩
        { p with proxy := p.proxy.deregister pair.forwarderPort }
  | tearChore (chores rest : List Chore) (site : Site)
      (part : Chore.Part p.site chores rest site) :
      Move now p ⟨.retiring, none, none, .tearing chores⟩
        ⟨.retiring, none, none, .tearing rest⟩ { p with site }
  | tornDown :
      Move now p ⟨.retiring, none, none, .tearing []⟩
        ⟨.retiring, none, none, .leaving .tornDown⟩ p.retirePair
  -- The way from state to state, and the end of the task.
  /-- The pair moves to its next state. -/
  | advance (s s' : PairState) (leases : Option (Port × Port)) (pair : Option Pair)
      (e : PairEvent) (next : s.next? e = some s')
      (proper : Task.Proper ⟨s', leases, pair, .entering⟩) :
      Move now p ⟨s, leases, pair, .leaving e⟩ ⟨s', leases, pair, .entering⟩
        (p.note (.moved s e s'))
  | finish :
      Move now p ⟨.done, none, none, .entering⟩ ⟨.done, none, none, .returning⟩ p
  | returnPermit :
      Move now p ⟨.done, none, none, .returning⟩ ⟨.done, none, none, .gone⟩
        { p with available := p.available + 1 }

/-- The moves from state to state. -/
theorem next_cases {s s' : PairState} {e : PairEvent} (next : s.next? e = some s') :
    (s = .allocating ∧ e = .portsLeased ∧ s' = .starting) ∨
      ((s = .allocating ∨ s = .starting) ∧ e = .launchFailed ∧ s' = .allocating) ∨
      ((s = .allocating ∨ s = .starting) ∧ e = .shutdown ∧ s' = .done) ∨
      (s = .starting ∧ e = .launched ∧ s' = .registered) ∨
      (s = .registered ∧ e = .retire ∧ s' = .retiring) ∨
      (s = .retiring ∧ e = .tornDown ∧ s' = .done) := by
  obtain ⟨⟨source, event, target⟩, hfound, htarget⟩ := Option.map_eq_some_iff.mp next
  have hmem := List.mem_of_find?_eq_some hfound
  have hsame := List.find?_some hfound
  simp only [decide_eq_true_eq] at hsame
  obtain ⟨rfl, rfl⟩ := hsame
  cases htarget
  simp only [PairState.moves, List.mem_cons, Prod.mk.injEq, List.not_mem_nil, or_false] at hmem
  -- The table of the states has eight moves.
  rcases hmem with ⟨rfl, rfl, rfl⟩ | ⟨rfl, rfl, rfl⟩ | ⟨rfl, rfl, rfl⟩ | ⟨rfl, rfl, rfl⟩ |
    ⟨rfl, rfl, rfl⟩ | ⟨rfl, rfl, rfl⟩ | ⟨rfl, rfl, rfl⟩ | ⟨rfl, rfl, rfl⟩
  all_goals simp

/-! ## Systems that obey -/

/-- Directories can be removed. -/
def TaskAction.Obeyed : TaskAction → Prop
  | startup a => a.Obeyed
  | forgo _ => False
  | _ => True

/-- The system does what pairs ask it for: programs can be killed, and directories be removed. -/
def Action.Obeyed : Action → Prop
  | worker _ a => a ≠ .resist
  | task _ a => a.Obeyed
  | _ => True

/-! ## Completeness of the moves -/

section Completeness

variable {now : Time} {p q : Pool} {t t' : Task}

private theorem move_of_enterAllocating
    (h : p.enterAllocating ⟨.allocating, none, none, .entering⟩ = (t', q)) :
    Move now p ⟨.allocating, none, none, .entering⟩ t' q := by
  unfold enterAllocating at h
  split at h
  next hraised => cases h; exact .dismiss hraised
  next hraised =>
    have hunraised : p.stop.raised = false := by simpa using hraised
    -- The first lease decides: a port for the circuit, or none at all.
    rcases hlease : p.site.ports.lease with ⟨_ | circuit, ports⟩
    · simp only [hlease] at h; cases h; exact .leaseNone ports hlease hunraised
    · simp only [hlease] at h; cases h; exact .leaseFirst circuit ports hlease hunraised

private theorem move_of_leaseSecond {circuit : Port}
    (h : p.leaseSecond ⟨.allocating, none, none, .leasing circuit⟩ circuit = (t', q)) :
    Move now p ⟨.allocating, none, none, .leasing circuit⟩ t' q := by
  unfold leaseSecond at h
  -- Without a second port the first one is released at once.
  rcases hlease : p.site.ports.lease with ⟨_ | forwarder, ports⟩
  · simp only [hlease] at h; cases h; exact .leaseOne circuit ports hlease
  · simp only [hlease] at h; cases h; exact .leaseSecond circuit forwarder ports hlease

private theorem move_of_concludeStart {s : Startup}
    (h : p.concludeStart ⟨.starting, none, none, .starting s⟩ s = some (t', q)) :
    Move now p ⟨.starting, none, none, .starting s⟩ t' q := by
  unfold concludeStart at h
  split at h
  next circuit forwarder hstage => cases h; exact .ready s circuit forwarder hstage
  next hstage => cases h; exact .interrupted s hstage
  next cause hother hstage => cases h; exact .startFails s cause hstage hother
  next => cases h

private theorem move_of_concludeStarted {pair : Pair}
    (h : p.concludeStarted ⟨.starting, none, none, .started pair⟩ pair = (t', q)) :
    Move now p ⟨.starting, none, none, .started pair⟩ t' q := by
  unfold concludeStarted at h
  split at h
  next hraised => cases h; exact .discard pair hraised
  next hraised => cases h; exact .count pair (by simpa using hraised)

/-- The chores of a task are done one after the other, then what comes last. -/
private theorem doChore_eq_some {chores : List Chore} {again : List Chore → Task}
    {last : Unit → Task × Pool} (h : p.doChore chores again last = some (t', q)) :
    (chores = [] ∧ last () = (t', q)) ∨
      ∃ rest site, Chore.step chores p.site = some (rest, site) ∧ t' = again rest ∧
        q = { p with site } := by
  unfold doChore at h
  split at h
  next => exact .inl ⟨rfl, Option.some.inj h⟩
  next =>
    obtain ⟨⟨rest, site⟩, hstep, hq⟩ := Option.map_eq_some_iff.mp h
    cases hq
    exact .inr ⟨rest, site, hstep, rfl, rfl⟩

/-- A pair that leaves a state by an event that its task can carry moves on. -/
private theorem move_of_leave {s : PairState} {leases : Option (Port × Port)} {pair : Option Pair}
    {e : PairEvent} (s' : PairState) (next : s.next? e = some s')
    (proper : Task.Proper ⟨s', leases, pair, .entering⟩)
    (h : p.leave ⟨s, leases, pair, .leaving e⟩ e = (t', q)) :
    Move now p ⟨s, leases, pair, .leaving e⟩ t' q := by
  simp only [leave, next] at h
  cases h
  exact .advance s s' leases pair e next proper

private theorem move_of_proceed (ht : t.Proper) (h : p.proceed now t = some (t', q)) :
    Move now p t t' q := by
  -- What a task carries in its activity leaves one case of the step function each.
  cases ht with
  | allocating => exact move_of_enterAllocating (Option.some.inj h)
  | leasing circuit => exact move_of_leaseSecond (Option.some.inj h)
  | leased circuit forwarder =>
    exact move_of_leave .starting (by decide) (.launching _ _) (Option.some.inj h)
  | launching circuit forwarder => cases h; exact .launch circuit forwarder
  | starting s => exact move_of_concludeStart h
  | started pair => exact move_of_concludeStarted (Option.some.inj h)
  | discarding chores =>
    simp only [proceed] at h
    rcases doChore_eq_some h with ⟨rfl, hlast⟩ | ⟨rest, site, hstep, rfl, rfl⟩
    · cases hlast; exact .discarded
    · exact .discardChore chores rest site (Chore.part_of_step hstep)
  | failing s early => cases h
  | pausing s early until_ =>
    simp only [proceed] at h
    split at h
    next hdue => cases h; exact .resume s early until_ hdue
    next => cases h
  | paused s early =>
    have hnext : s.next? .launchFailed = some .allocating := by
      rcases early with rfl | rfl <;> decide
    exact move_of_leave .allocating hnext .allocating (Option.some.inj h)
  | stopped s early =>
    have hnext : s.next? .shutdown = some .done := by rcases early with rfl | rfl <;> decide
    exact move_of_leave .done hnext .done (Option.some.inj h)
  | launched pair =>
    exact move_of_leave .registered (by decide) (.registering pair) (Option.some.inj h)
  | registering pair => cases h; exact .register pair
  | serving pair since => cases h
  | served pair => exact move_of_leave .retiring (by decide) (.retiring pair) (Option.some.inj h)
  | retiring pair => cases h; exact .deregister pair
  | tearing chores =>
    simp only [proceed] at h
    rcases doChore_eq_some h with ⟨rfl, hlast⟩ | ⟨rest, site, hstep, rfl, rfl⟩
    · cases hlast; exact .tornDown
    · exact .tearChore chores rest site (Chore.part_of_step hstep)
  | tornDown => exact move_of_leave .done (by decide) .done (Option.some.inj h)
  | done => cases h; exact .finish
  | returning => cases h; exact .returnPermit
  | gone => cases h

/-- **Completeness**: every step of a proper task is a move. -/
theorem move_of_taskStep {a : TaskAction} (ht : t.Proper)
    (h : p.taskStep now t a = some (t', q)) : Move now p t t' q := by
  cases a with
  | proceed => exact move_of_proceed ht h
  | startup a =>
    unfold taskStep at h
    cases ht with
    | starting s =>
      obtain ⟨⟨s', site⟩, hstep, hq⟩ := Option.map_eq_some_iff.mp h
      cases hq
      exact .startup s s' a site hstep
    -- No other activity has such a step.
    | _ => cases h
  | retire reason =>
    unfold taskStep at h
    cases ht with
    | serving pair since =>
      dsimp only at h
      split at h
      next hdue => cases h; exact .retire pair since reason hdue
      next => cases h
    | _ => cases h
  | pause jitter =>
    unfold taskStep at h
    cases ht with
    | failing s early =>
      dsimp only at h
      split at h
      next hbound => cases h; exact .pause s early jitter hbound
      next => cases h
    | _ => cases h
  | quit =>
    unfold taskStep at h
    cases ht with
    | pausing s early until_ =>
      dsimp only at h
      split at h
      next hover => cases h; exact .quit s early until_ hover
      next => cases h
    | _ => cases h
  | forgo left =>
    unfold taskStep at h
    cases ht with
    | discarding chores =>
      obtain ⟨⟨rest, site⟩, hstep, hq⟩ := Option.map_eq_some_iff.mp h
      cases hq
      exact .discardChore chores rest site (Chore.part_of_forgo hstep)
    | tearing chores =>
      obtain ⟨⟨rest, site⟩, hstep, hq⟩ := Option.map_eq_some_iff.mp h
      cases hq
      exact .tearChore chores rest site (Chore.part_of_forgo hstep)
    | _ => cases h

/-- A move leads to a proper task. -/
theorem Move.proper (h : Move now p t t' q) : t'.Proper := by
  cases h with
  -- Only an early state is left by these; all other moves end in a state of their own.
  | pause s early => exact .pausing s early _
  | resume s early => exact .paused s early
  | quit s early => exact .stopped s early
  | advance s s' leases pair e next proper => exact proper
  | dismiss => exact .stopped _ (.inl rfl)
  | interrupted | discarded => exact .stopped _ (.inr rfl)
  | leaseNone | leaseOne => exact .failing _ (.inl rfl)
  | startFails => exact .failing _ (.inr rfl)
  | _ => constructor

/-- A move touches no other task, and neither the plan, the signal nor the runner. -/
theorem Move.frame (h : Move now p t t' q) :
    q.tasks = p.tasks ∧ q.plan = p.plan ∧ q.stop = p.stop ∧ q.runner = p.runner := by
  cases h <;> exact ⟨rfl, rfl, rfl, rfl⟩

/-- A task on a system that obeys removes the directories that it is to remove. -/
theorem forgone_of_taskStep {a : TaskAction} (ht : t.Proper) (obeyed : a.Obeyed)
    (h : p.taskStep now t a = some (t', q)) : q.site.forgone = p.site.forgone := by
  -- Only the start of a pair and the chores of a task touch any directory.
  cases move_of_taskStep ht h with
  | startup s s' b site step =>
    cases a with
    | startup c =>
      obtain ⟨⟨u, site'⟩, hstep, hq⟩ := Option.map_eq_some_iff.mp h
      cases hq
      exact (Startup.advance_of_step hstep).forgone_eq obeyed
    | proceed =>
      simp only [taskStep, proceed, concludeStart] at h
      split at h <;> cases h
    | forgo left => exact obeyed.elim
    | retire | pause | quit => cases h
  | discardChore chores rest site part | tearChore chores rest site part =>
    cases a with
    | proceed =>
      simp only [taskStep, proceed] at h
      rcases doChore_eq_some h with ⟨-, hlast⟩ | ⟨rest', site', hstep, -, hq⟩
      · cases hlast
      · cases hq
        exact Chore.forgone_of_step hstep
    | forgo left => exact obeyed.elim
    | startup | retire | pause | quit => cases h
  | _ => rfl

/-- Only tasks with a permit move. -/
theorem Move.holdsPermit (h : Move now p t t' q) : t.holdsPermit = true := by
  cases h <;> rfl

end Completeness

/-! ## The steps of the pool -/

/-- The steps of the pool at a time, from a state, by an action, to a state. -/
inductive Change (now : Time) (p : Pool) : Action → Pool → Prop where
  | raise : Change now p .raise { p with stop := p.stop.raise }
  | desert : Change now p .desert { p with stop := p.stop.desert }
  | proxy (a : Proxy.Action) (proxy : Proxy) (step : p.proxy.step now a = some proxy) :
      Change now p (.proxy a) { p with proxy }
  | worker (w : WorkerId) (a : Process.Action) (site : Site)
      (step : p.site.processStep now w a = some site) :
      Change now p (.worker w a) { p with site }
  | begin (runner : p.runner = .waiting) (up : p.proxy.isUp = true) :
      Change now p .begin { p with runner := .admitting }
  | admitPair (runner : p.runner = .admitting) (stop : p.stop.isOver = false)
      (permit : 0 < p.available) :
      Change now p .admitPair
        { p with available := p.available - 1, tasks := p.tasks ++ [{}] }
  | close (runner : p.runner = .admitting) (stopping : p.stop.isOver = true) :
      Change now p .close { p with runner := .draining }
  | finish (runner : p.runner = .draining) (idle : ∀ t ∈ p.tasks, t.holdsPermit = false) :
      Change now p .finish { p with runner := .returned }
  | task (i : Nat) (a : TaskAction) (t t' : Task) (q : Pool) (there : p.tasks[i]? = some t)
      (move : Move now p t t' q) :
      Change now p (.task i a) { q with tasks := p.tasks.set i t' }

section Changes

variable {now : Time} {p q : Pool} {a : Action}

private theorem change_of_runnerStep (h : p.runnerStep a = some q) : Change now p a q := by
  cases a with
  | begin =>
    simp only [runnerStep] at h
    split at h
    next hg => cases h; exact .begin hg.1 hg.2
    next => cases h
  | admitPair =>
    simp only [runnerStep] at h
    split at h
    next hg => cases h; exact .admitPair hg.1 (by simpa using hg.2.1) hg.2.2
    next => cases h
  | close =>
    simp only [runnerStep] at h
    split at h
    next hg => cases h; exact .close hg.1 hg.2
    next => cases h
  | finish =>
    simp only [runnerStep] at h
    split at h
    next hg => cases h; exact .finish hg.1 (by simpa using hg.2)
    next => cases h
  | _ => cases h

/-- A task that acts in the pool takes its step, which is a move, and then stands in its place. -/
theorem taskStep_of_step {i : Nat} {b : TaskAction} (proper : ∀ t ∈ p.tasks, t.Proper)
    (h : p.step now (.task i b) = some q) :
    ∃ t t' r, p.tasks[i]? = some t ∧ p.taskStep now t b = some (t', r) ∧ Move now p t t' r ∧
      q = { r with tasks := p.tasks.set i t' } := by
  obtain ⟨t, hthere, h⟩ := Option.bind_eq_some_iff.mp h
  obtain ⟨⟨t', r⟩, hstep, h⟩ := Option.bind_eq_some_iff.mp h
  -- The task is set among those of the pool after its step, which are the same.
  have hmove := move_of_taskStep (proper t (List.mem_of_getElem? hthere)) hstep
  dsimp only at h
  rw [hmove.frame.1] at h
  exact ⟨t, t', r, hthere, hstep, hmove, (Option.some.inj h).symm⟩

/-- **Completeness**: as long as all tasks are proper, every step of the pool is a change. -/
theorem change_of_step (proper : ∀ t ∈ p.tasks, t.Proper) (h : p.step now a = some q) :
    Change now p a q := by
  cases a with
  | raise => cases h; exact .raise
  | desert => cases h; exact .desert
  | proxy a =>
    obtain ⟨proxy, hstep, hq⟩ := Option.map_eq_some_iff.mp h
    cases hq
    exact .proxy a proxy hstep
  | worker w a =>
    obtain ⟨site, hstep, hq⟩ := Option.map_eq_some_iff.mp h
    cases hq
    exact .worker w a site hstep
  | task i a =>
    obtain ⟨t, t', r, hthere, -, hmove, rfl⟩ := taskStep_of_step proper h
    exact .task i a t t' r hthere hmove
  | begin | admitPair | close | finish => exact change_of_runnerStep h

/-- Every step of a system that obeys removes the directories that it is to remove. -/
theorem forgone_of_step (proper : ∀ t ∈ p.tasks, t.Proper) (obeyed : a.Obeyed)
    (h : p.step now a = some q) : q.site.forgone = p.site.forgone := by
  cases a with
  | task i b =>
    obtain ⟨t, t', r, hthere, hstep, -, rfl⟩ := taskStep_of_step proper h
    have ht := proper t (List.mem_of_getElem? hthere)
    exact (forgone_of_taskStep ht obeyed hstep :)
  | worker w b =>
    obtain ⟨site, hstep, hq⟩ := Option.map_eq_some_iff.mp h
    cases hq
    obtain ⟨worker, process, -, -, rfl⟩ := Site.processStep_eq_some hstep
    rfl
  | _ =>
    cases change_of_step proper h
    rfl

/-- What holds of all tasks, and of one that replaces another, holds of all afterwards. -/
theorem forall_mem_set {tasks : List Task} {P : Task → Prop} {i : Nat} {t' : Task}
    (old : ∀ t ∈ tasks, P t) (new : P t') : ∀ t ∈ tasks.set i t', P t := by
  intro t ht
  rcases List.mem_or_eq_of_mem_set ht with ht | rfl
  · exact old t ht
  · exact new

/-- Another task than the one that is replaced is still there. -/
theorem mem_set_of_ne {tasks : List Task} {i : Nat} {t t' u : Task} (there : tasks[i]? = some t)
    (hu : u ∈ tasks) (hne : u ≠ t) : u ∈ tasks.set i t' := by
  obtain ⟨j, hj⟩ := List.mem_iff_getElem?.mp hu
  have hij : i ≠ j := by
    rintro rfl
    exact hne (Option.some.inj (hj.symm.trans there))
  exact List.mem_of_getElem? ((List.getElem?_set_ne hij).trans hj)

/-- What holds of all tasks, and of one that is admitted, holds of all afterwards. -/
theorem forall_mem_admit {tasks : List Task} {P : Task → Prop} {t' : Task}
    (old : ∀ t ∈ tasks, P t) (new : P t') : ∀ t ∈ tasks ++ [t'], P t :=
  List.forall_mem_append.mpr ⟨old, List.forall_mem_singleton.mpr new⟩

/-- The plan stays as it was made. -/
theorem Change.plan_eq (h : Change now p a q) : q.plan = p.plan := by
  cases h with
  | task i a t t' r there move => exact move.frame.2.1
  | _ => rfl

/-- Only these two actions end the wait for the signal to stop. -/
theorem Change.isOver_iff (h : Change now p a q) :
    q.stop.isOver = true ↔ p.stop.isOver = true ∨ a = .raise ∨ a = .desert := by
  cases h with
  | raise => simp
  | desert => simp
  | task i b u u' r there move =>
    show r.stop.isOver = true ↔ _
    rw [move.frame.2.2.1]
    simp
  | _ => simp

/-- The signal to stop is raised for good. -/
theorem Change.raised (h : Change now p a q) (raised : p.stop.raised = true) :
    q.stop.raised = true := by
  cases h with
  | raise => rfl
  | task i b u u' r there move => exact move.frame.2.2.1 ▸ raised
  | _ => exact raised

/-- A task stays as it is, is admitted, or moves. -/
theorem Change.task_cases (h : Change now p a q) (i : Nat) :
    (q.tasks[i]? = p.tasks[i]? ∧ ∀ b, a ≠ .task i b) ∨
      (a = .admitPair ∧ p.tasks[i]? = none ∧ q.tasks[i]? = some {}) ∨
      ∃ b t t' r, a = .task i b ∧ p.tasks[i]? = some t ∧ q.tasks[i]? = some t' ∧
        Move now p t t' r := by
  cases h with
  | admitPair =>
    rcases Nat.lt_trichotomy i p.tasks.length with hlt | rfl | hgt
    · exact .inl ⟨List.getElem?_append_left hlt, fun b hb => by cases hb⟩
    · exact .inr (.inl ⟨rfl, List.getElem?_eq_none (Nat.le_refl _), List.getElem?_concat_length⟩)
    · refine .inl ⟨?_, fun b hb => by cases hb⟩
      have hafter : (p.tasks ++ [({} : Task)]).length ≤ i := by
        rw [List.length_append]
        exact hgt
      exact (List.getElem?_eq_none hafter).trans (List.getElem?_eq_none (Nat.le_of_lt hgt)).symm
  | task j b t t' r there move =>
    by_cases hji : j = i
    · subst hji
      have hself := List.getElem?_set_self (a := t') (List.getElem?_eq_some_iff.mp there).1
      exact .inr (.inr ⟨b, t, t', r, rfl, there, hself, move⟩)
    · exact .inl ⟨List.getElem?_set_ne hji, fun c hc => hji (by cases hc; rfl)⟩
  | _ => exact .inl ⟨rfl, fun b hb => by cases hb⟩

end Changes

end OnionPool.Pool
