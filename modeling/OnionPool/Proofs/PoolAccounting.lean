import OnionPool.Proofs.PoolHoldings

/-!
# The accounts of the pool

Permits, ports, entries of the registry and counters are taken and given back by different moves of
the tasks, on the way through a life of a pair and on each way out of it. Whatever happens in
between, what is out is what the tasks have.

## Structure

- The first section says how one move of a task changes each account.
- `Accounts` is the invariant: every account equals a total over the tasks. It is kept by every step
  of the pool, as long as nobody else changes the registry.
- `Task.isInside` tells the tasks that go on at once from those that wait, and `accounts_balance`
  reads the accounts when all tasks wait.
-/

namespace OnionPool.Pool

/-! ## Single moves -/

section Moves

variable {now : Time} {p q : Pool} {t t' : Task}

/-- The measures of a task do not change when its pair moves to its next state. -/
theorem measures_of_next {s s' : PairState} {e : PairEvent} (next : s.next? e = some s')
    (leases : Option (Port × Port)) (pair : Option Pair) :
    Task.advertised ⟨s', leases, pair, .entering⟩ = Task.advertised ⟨s, leases, pair, .leaving e⟩ ∧
      Task.isLive ⟨s', leases, pair, .entering⟩ = Task.isLive ⟨s, leases, pair, .leaving e⟩ ∧
      Task.isLaunched ⟨s', leases, pair, .entering⟩ =
        Task.isLaunched ⟨s, leases, pair, .leaving e⟩ := by
  -- None of the moves from state to state changes what is counted.
  rcases next_cases next with ⟨rfl, rfl, rfl⟩ | ⟨rfl | rfl, rfl, rfl⟩ | ⟨rfl | rfl, rfl, rfl⟩ |
    ⟨rfl, rfl, rfl⟩ | ⟨rfl, rfl, rfl⟩ | ⟨rfl, rfl, rfl⟩
  all_goals exact ⟨rfl, rfl, rfl⟩

/-- A pair is counted as started by the move that launches it, and as retired by the move that
completes its teardown. -/
theorem Move.launched (h : Move now p t t' q) :
    q.stats.started + p.stats.retired + t.isLaunched.toNat =
      p.stats.started + q.stats.retired + t'.isLaunched.toNat := by
  cases h with
  | advance s s' leases pair e next =>
    rw [(measures_of_next next leases pair).2.2]
    rfl
  -- Only these two moves count, and only there the measure changes.
  | count => exact Nat.add_right_comm p.stats.started 1 p.stats.retired
  | tornDown => exact Nat.add_assoc p.stats.started p.stats.retired 1
  | pause s early | resume s early | quit s early => rcases early with rfl | rfl <;> rfl
  | _ => rfl

/-- A move counts a pair as live, or no longer, exactly when the task says so. -/
theorem Move.live (h : Move now p t t' q) (counted : t.isLive.toNat ≤ p.stats.live) :
    q.stats.live + t.isLive.toNat = p.stats.live + t'.isLive.toNat := by
  cases h with
  | advance s s' leases pair e next =>
    rw [(measures_of_next next leases pair).2.1]
    rfl
  -- The pair that is retired was counted, so the subtraction does not stop at zero.
  | tornDown => exact Nat.sub_add_cancel counted
  | pause s early | resume s early | quit s early => rcases early with rfl | rfl <;> rfl
  | _ => rfl

/-- A move either leaves the reverse proxy alone, or registers a port that its task holds, or
deregisters the port that its task has registered. -/
theorem Move.registry (h : Move now p t t' q) :
    (q.proxy = p.proxy ∧ t'.advertised = t.advertised) ∨
      (∃ port ∈ t.ports, q.proxy = p.proxy.register port ∧ t.advertised = [] ∧
        t'.advertised = [port]) ∨
      ∃ port, q.proxy = p.proxy.deregister port ∧ t.advertised = [port] ∧ t'.advertised = [] := by
  cases h with
  | advance s s' leases pair e next =>
    exact .inl ⟨rfl, (measures_of_next next leases pair).1⟩
  | register pair =>
    exact .inr (.inl ⟨pair.forwarderPort, List.mem_cons_self .., rfl, rfl, rfl⟩)
  | deregister pair => exact .inr (.inr ⟨pair.forwarderPort, rfl, rfl, rfl⟩)
  | pause s early | resume s early | quit s early =>
    rcases early with rfl | rfl <;> exact .inl ⟨rfl, rfl⟩
  | _ => exact .inl ⟨rfl, rfl⟩

/-- What a task has put into the registry is one of its ports. -/
theorem Task.Proper.count_advertised_le (h : t.Proper) (x : Port) :
    t.advertised.count x ≤ t.ports.count x := by
  cases h with
  | serving pair | served pair | retiring pair =>
    exact (List.sublist_append_left [pair.forwarderPort] [pair.circuitPort]).count_le x
  | failing s early | pausing s early | paused s early | stopped s early =>
    rcases early with rfl | rfl <;> exact Nat.zero_le _
  | _ => exact Nat.zero_le _

end Moves

/-! ## The invariant -/

/-- Everything but calls from elsewhere that change the registry. -/
def Action.IsOwn : Action → Prop
  | proxy a => a.KeepsRegistry
  | _ => True

/-- The accounts balance: what is out is what the tasks have. -/
structure Accounts (p : Pool) : Prop where
  proper : ∀ t ∈ p.tasks, t.Proper
  orderly : ∀ t ∈ p.tasks, Chore.Orderly t.debts
  permits : p.available + p.total (·.holdsPermit.toNat) = p.plan.size
  ports : ∀ x, p.total (·.ports.count x) = p.site.ports.leased.count x
  registry : ∀ x, p.total (·.advertised.count x) = p.proxy.registry.count x
  live : p.total (·.isLive.toNat) = p.stats.live
  launched : p.stats.retired + p.total (·.isLaunched.toNat) = p.stats.started

section Invariant

variable {now : Time} {p q : Pool} {t t' : Task} {i : Nat}

/-- The accounts contain the holdings. -/
theorem Accounts.holdings (h : Accounts p) : Holdings p where
  proper := h.proper
  orderly := h.orderly
  permits := h.permits
  ports := h.ports

/-- A port that a task holds is in the registry only if this task has registered it: another one
that had would hold it, too. -/
theorem Accounts.mem_advertised (h : Accounts p) (there : p.tasks[i]? = some t) {port : Port}
    (held : port ∈ t.ports) (registered : port ∈ p.proxy.registry) : port ∈ t.advertised := by
  have hmem := List.mem_of_getElem? there
  -- The port is leased once, and this task holds it.
  have hle := sum_map_add_le (f := (·.advertised.count port)) (g := (·.ports.count port)) hmem
    fun u hu => (h.proper u hu).count_advertised_le port
  have hheld : 0 < t.ports.count port := List.count_pos_iff.mpr held
  have hpresent := PortSet.count_pos_iff.mpr registered
  have hregistry := h.registry port
  have hports := h.ports port
  have hone := p.site.ports.leased.count_le_one port
  unfold total at hregistry hports
  rw [← List.count_pos_iff]
  omega

/-- A port that is held by a task that does not advertise it is not in the registry. -/
theorem Accounts.not_mem_registry (h : Accounts p) (there : p.tasks[i]? = some t) {port : Port}
    (held : port ∈ t.ports) (silent : t.advertised = []) : port ∉ p.proxy.registry :=
  fun registered => List.not_mem_nil (silent ▸ h.mem_advertised there held registered)

/-- A port that a task has registered is in the registry. -/
theorem Accounts.mem_registry (h : Accounts p) (there : p.tasks[i]? = some t) {port : Port}
    (advertised : t.advertised = [port]) : port ∈ p.proxy.registry := by
  have hle := le_total there (·.advertised.count port)
  have hone : t.advertised.count port = 1 := by rw [advertised]; exact List.count_singleton_self
  rw [h.registry port, hone] at hle
  exact PortSet.count_pos_iff.mp hle

/-- What a move does to the registry is what it does to the ports that its task has registered. -/
theorem Accounts.registry_move (h : Accounts p) (there : p.tasks[i]? = some t)
    (move : Move now p t t' q) (x : Port) :
    q.proxy.registry.count x + t.advertised.count x =
      p.proxy.registry.count x + t'.advertised.count x := by
  rcases move.registry with ⟨hproxy, hsame⟩ | ⟨port, held, hproxy, hsilent, hnow⟩ |
    ⟨port, hproxy, hbefore, hnow⟩
  · rw [hproxy, hsame]
  · have hnew := h.not_mem_registry there held hsilent
    have hregistry : q.proxy.registry = p.proxy.registry.insert port := by
      rw [hproxy]; exact Proxy.registry_request _
    rw [hregistry, PortSet.count_insert hnew, hsilent, hnow]
    rfl
  · have hold := h.mem_registry there hbefore
    have hregistry : q.proxy.registry = p.proxy.registry.erase port := by
      rw [hproxy]; exact Proxy.registry_request _
    rw [hregistry, hbefore, hnow, PortSet.count_erase hold]
    rfl

/-- The accounts balance after a move. -/
theorem Accounts.task (h : Accounts p) (there : p.tasks[i]? = some t) (move : Move now p t t' q) :
    Accounts { q with tasks := p.tasks.set i t' } := by
  have hholdings := h.holdings.task there move
  have hset := fun f => total_set there q t' f
  -- Every account moves by what the measure of this task moves.
  refine { hholdings with registry := ?registry, live := ?live, launched := ?launched }
  case registry =>
    intro x
    have hmove := h.registry_move there move x
    have htotal := hset (·.advertised.count x)
    have hbefore := h.registry x
    dsimp only
    omega
  case live =>
    have hmove := move.live (h.live ▸ le_total there (·.isLive.toNat))
    have htotal := hset (·.isLive.toNat)
    have hbefore := h.live
    dsimp only
    omega
  case launched =>
    have hmove := move.launched
    have htotal := hset (·.isLaunched.toNat)
    have hbefore := h.launched
    dsimp only
    omega

/-- The accounts balance after every step. -/
theorem Accounts.step {a : Action} (h : Accounts p) (ha : a.IsOwn) (hs : p.step now a = some q) :
    Accounts q := by
  cases change_of_step h.proper hs with
  | raise | desert | begin | close | finish => exact { h with }
  | proxy a proxy step =>
    have hregistry : proxy.registry = p.proxy.registry :=
      (Proxy.transition_of_step step).registry_eq ha
    exact { h with registry := fun x => (h.registry x).trans (congrArg (·.count x) hregistry.symm) }
  | worker w a site step =>
    obtain ⟨worker, process, -, -, rfl⟩ := Site.processStep_eq_some step
    exact { h with }
  | admitPair runner stop permit =>
    have hadd := fun f => total_append p { p with available := p.available - 1 } {} f
    exact {
      h.holdings.admit permit with
      registry := fun x => (hadd (·.advertised.count x)).trans (h.registry x)
      live := (hadd (·.isLive.toNat)).trans h.live
      launched := (congrArg _ (hadd (·.isLaunched.toNat))).trans h.launched }
  | task i a t t' r there move => exact h.task there move

end Invariant

/-! ## Tasks that wait -/

/-- Whether the next chore is done at once. -/
def isReleasing : List Chore → Bool
  | [] => true
  | c :: _ => c.port?.isSome

/-- Whether a task goes on at once. Otherwise it waits: for its first turn, for a program, for a
removal, for a time or for the signal to stop. -/
def Task.isInside (t : Task) : Bool :=
  match t.activity with
  | .entering => t.state ≠ .allocating
  | .leasing _ | .started _ | .failing | .leaving _ | .returning => true
  | .starting s =>
    match s.stage with
    | .preparing _ | .spawning _ | .settling _ _ _ => false
    | .undoing chores _ => isReleasing chores
    | .failed _ | .ready _ _ => true
  | .discarding chores | .tearing chores => isReleasing chores
  | .pausing _ | .serving _ | .gone => false

/-- The port of a pair that is registered. -/
def Task.registeredPort? (t : Task) : Option Port :=
  if t.state = .registered then t.pair.map (·.forwarderPort) else none

section Waiting

variable {t : Task}

/-- Of chores in order, both ports are left until the first of them is released. -/
theorem length_ports_of_waiting {chores : List Chore} (ho : Chore.Orderly chores)
    (waits : isReleasing chores = false) : (Chore.ports chores).length = 2 := by
  -- Chores that wait begin with one that releases no port, so both ports are held.
  cases chores with
  | nil => cases waits
  | cons c rest =>
    have hport : c.port? = none := by simpa [isReleasing] using waits
    exact ho.length_ports hport

/-- A task that waits holds no ports or two. -/
theorem Task.Proper.ports_of_waiting (h : t.Proper) (ho : Chore.Orderly t.debts)
    (waits : t.isInside = false) : t.ports = [] ∨ t.ports.length = 2 := by
  cases h with
  | allocating | pausing | gone => exact .inl rfl
  | serving => exact .inr rfl
  | discarding chores => exact .inr (length_ports_of_waiting ho waits)
  | tearing chores => exact .inr (length_ports_of_waiting ho waits)
  | starting s =>
    obtain ⟨c, f, stage⟩ := s
    refine .inr ?_
    -- Until a start begins to undo, it owes both releases.
    cases stage with
    | preparing circuit | spawning circuit | settling circuit => cases circuit <;> rfl
    | undoing chores cause => exact length_ports_of_waiting ho waits
    | failed | ready => cases waits
  | _ => cases waits

/-- A task that waits has registered its port if and only if its pair is registered, and its pair is
counted as live if and only if it is registered or retiring. -/
theorem Task.Proper.measures_of_waiting (h : t.Proper) (waits : t.isInside = false) :
    t.advertised = t.registeredPort?.toList ∧
      t.isLive = decide (t.state = .registered ∨ t.state = .retiring) ∧
      t.isLaunched = t.isLive := by
  cases h with
  | allocating | starting | discarding | serving | tearing | gone => exact ⟨rfl, rfl, rfl⟩
  | pausing s early => rcases early with rfl | rfl <;> exact ⟨rfl, rfl, rfl⟩
  | _ => cases waits

end Waiting

/-! ## The accounts when all tasks wait -/

/-- What an observer sees between two steps of the tasks. -/
structure Balanced (p : Pool) : Prop where
  permits : p.available + p.tasks.countP (·.holdsPermit) = p.plan.size
  /-- The leased ports are those that tasks hold, and no port is held twice. -/
  leased : (p.tasks.flatMap Task.ports).Perm p.site.ports.inUse
  disjoint : (p.tasks.flatMap Task.ports).Nodup
  /-- A task holds both ports of a pair or none, and none during a pause. -/
  pairs : ∀ t ∈ p.tasks, t.ports = [] ∨ t.ports.length = 2
  pausing : ∀ t ∈ p.tasks, ∀ until_, t.activity = .pausing until_ → t.ports = []
  registry : (p.tasks.filterMap Task.registeredPort?).Perm p.proxy.registry.toList
  live : p.stats.live =
    p.tasks.countP fun t => decide (t.state = .registered ∨ t.state = .retiring)
  bound : p.stats.live ≤ p.plan.size
  started : p.stats.started = p.stats.live + p.stats.retired

section Balance

variable {p : Pool}

/-- When all tasks wait, the accounts balance. -/
theorem Accounts.balanced (h : Accounts p) (waits : ∀ t ∈ p.tasks, t.isInside = false) :
    Balanced p := by
  have hmeasures := fun t ht => (h.proper t ht).measures_of_waiting (waits t ht)
  have hlive : p.stats.live = p.tasks.countP (·.isLive) := h.live ▸ total_toNat p _
  have hpermits : p.available + p.tasks.countP (·.holdsPermit) = p.plan.size := by
    rw [← total_toNat]
    exact h.permits
  have hports := h.holdings.perm_inUse
  refine {
    permits := hpermits
    leased := hports
    disjoint := hports.nodup_iff.mpr (PortSet.nodup_toList _)
    pairs := fun t ht => (h.proper t ht).ports_of_waiting (h.orderly t ht) (waits t ht)
    pausing := ?pausing
    registry := ?registry
    live := ?live
    bound := ?bound
    started := ?started }
  case pausing =>
    intro t ht until_ hactivity
    have hproper := h.proper t ht
    cases hproper with
    | pausing => rfl
    | _ => cases hactivity
  case registry =>
    refine List.perm_iff_count.mpr fun x => ?_
    have hsame : p.tasks.filterMap Task.registeredPort? = p.tasks.flatMap Task.advertised := by
      rw [List.filterMap_eq_flatMap_toList]
      exact List.flatMap_congr fun t ht => (hmeasures t ht).1.symm
    rw [hsame, ← total_count, h.registry x]
    exact (PortSet.count_toList ..).symm
  case live =>
    rw [hlive]
    refine List.countP_congr fun t ht => ?_
    rw [(hmeasures t ht).2.1]
  case bound =>
    -- A task whose pair is live holds a permit.
    have hle : p.tasks.countP (·.isLive) ≤ p.tasks.countP (·.holdsPermit) := by
      refine List.countP_mono_left fun t ht hlive => ?_
      have hproper := h.proper t ht
      cases hproper with
      | gone => cases hlive
      | _ => rfl
    omega
  case started =>
    have hlaunched : p.tasks.countP (·.isLaunched) = p.tasks.countP (·.isLive) :=
      List.countP_congr fun t ht => by rw [(hmeasures t ht).2.2]
    have hbefore := h.launched
    rw [total_toNat, hlaunched, ← hlive] at hbefore
    omega

/-- Only the move that completes a teardown counts a pair as retired, and then there is one live. -/
theorem Move.live_of_retired {now : Time} {q : Pool} {t t' : Task} (h : Move now p t t' q)
    (counted : t.isLive.toNat ≤ p.stats.live) (retired : q.stats.retired ≠ p.stats.retired) :
    q.stats.live + 1 = p.stats.live := by
  cases h with
  | tornDown => exact Nat.sub_add_cancel counted
  | _ => exact absurd rfl retired

end Balance

/-! ## Runs -/

section Runs

variable {plan : Plan} {proxyPlan : Proxy.Plan} {range : PortRange}
  {folders : List (Seat × Contents)} {now : Time} {p : Pool}

/-- The accounts are kept in every run in which the pool alone registers ports. -/
theorem Accounts.of_reach
    (h : machine.Reach Action.IsOwn (opening plan proxyPlan range folders) now p) :
    p.plan = plan ∧ Accounts p := by
  refine h.induct (P := fun _ (s : Pool) => s.plan = plan ∧ Accounts s) ⟨rfl, ?_⟩ ?_ fun ih _ => ih
  · exact {
      Holdings.opening plan proxyPlan range folders with
      registry := fun x => (PortSet.count_empty x).symm
      live := rfl
      launched := rfl }
  · intro now s s' a ih ha hs
    exact ⟨(change_of_step ih.2.proper hs).plan_eq.trans ih.1, ih.2.step ha hs⟩

/-- **The accounts balance**: in every run in which nobody else changes the registry, a task
registers a port only if it is not in the registry, deregisters a port only if it is, and counts a
pair as retired only if one is live; and whenever all tasks wait, permits, ports, the registry and
the counters are what the tasks have. -/
theorem accounts_balance
    (h : machine.Reach Action.IsOwn (opening plan proxyPlan range folders) now p) :
    (∀ i a q, p.step now (.task i a) = some q →
      (q.proxy = p.proxy ∨
        (∃ port, port ∉ p.proxy.registry ∧ q.proxy = p.proxy.register port) ∨
        ∃ port, port ∈ p.proxy.registry ∧ q.proxy = p.proxy.deregister port) ∧
      (q.stats.retired ≠ p.stats.retired → q.stats.live + 1 = p.stats.live)) ∧
    ((∀ t ∈ p.tasks, t.isInside = false) → p.plan = plan ∧ Balanced p) := by
  obtain ⟨hplan, haccounts⟩ := Accounts.of_reach h
  refine ⟨fun i a q hstep => ?_, fun waits => ⟨hplan, haccounts.balanced waits⟩⟩
  cases change_of_step haccounts.proper hstep with
  | task _ _ t t' q there move =>
    have hlive : t.isLive.toNat ≤ p.stats.live := haccounts.live ▸ le_total there (·.isLive.toNat)
    refine ⟨?_, move.live_of_retired hlive⟩
    rcases move.registry with ⟨hsame, -⟩ | ⟨port, held, hregister, hsilent, -⟩ |
      ⟨port, hderegister, hbefore, -⟩
    · exact .inl hsame
    · exact .inr (.inl ⟨port, haccounts.not_mem_registry there held hsilent, hregister⟩)
    · exact .inr (.inr ⟨port, haccounts.mem_registry there hbefore, hderegister⟩)

/-- Two pairs are admitted; the first one serves, and there is no port for the second one. -/
def firstServes : List Action := [
  .proxy (.prepare none), .proxy (.write none), .proxy (.rename none), .proxy (.spawn 1 0),
  .proxy .judge, .begin, .admitPair, .admitPair,
  .task 0 .proceed, .task 0 .proceed, .task 0 .proceed, .task 0 .proceed,
  .task 0 (.startup (.prepare [])), .task 0 (.startup (.spawn 0)), .task 0 (.startup .proceed),
  .task 1 .proceed, .task 1 (.pause 0),
  .task 0 (.startup (.prepare [])), .task 0 (.startup (.spawn 0)), .task 0 (.startup .proceed),
  .task 0 .proceed, .task 0 .proceed, .task 0 .proceed, .task 0 .proceed]

/-- A pool of three pairs with ports for one. -/
def narrow : Pool :=
  opening ⟨3, 1000, 10⟩ ⟨⟨8080, none, 256, .roundRobin⟩, ⟨0, 100, 1⟩, "haproxy"⟩ ⟨30000, 30002⟩ []

/-- The pool when one pair serves and one pauses. -/
def narrowServing : Pool := (machine.play 0 firstServes narrow).getD narrow

/-- One pair serves and another one pauses; one permit is left, and the forwarder of the pair that
serves is registered. -/
theorem accounts_balance_in_narrow :
    machine.play 0 firstServes narrow = some narrowServing ∧ Balanced narrowServing ∧
      narrowServing.available = 1 ∧ narrowServing.site.ports.inUse = [30000, 30001] ∧
      narrowServing.proxy.registry.toList = [30001] ∧ narrowServing.stats.live = 1 := by
  have hplay : machine.play 0 firstServes narrow = some narrowServing := by rfl
  have hreach : machine.Reach Action.IsOwn narrow 0 narrowServing := by
    refine Machine.Reach.append .start (.play .refl ?_ hplay)
    simp [firstServes, Action.IsOwn, Proxy.Action.KeepsRegistry]
  have hwaits : ∀ t ∈ narrowServing.tasks, t.isInside = false := by
    have hall : narrowServing.tasks.all (!·.isInside) = true := by rfl
    simpa using hall
  exact ⟨hplay, ((accounts_balance hreach).2 hwaits).2, by rfl, by rfl, by rfl, by rfl⟩

end Runs

end OnionPool.Pool
