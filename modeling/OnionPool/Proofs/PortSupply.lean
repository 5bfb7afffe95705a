import Mathlib.Algebra.BigOperators.Ring.List
import OnionPool.Proofs.ConfigAcceptance
import OnionPool.Proofs.PoolHoldings
import OnionPool.Proofs.PortCycle

/-!
# Ports never run out

A task owes two ports at most, and one at most when it is about to lease another. There are no more
tasks than permits, and the configuration has two ports for each of them. So whenever a task looks
for a port, there is one that is idle, and the search of the allocator comes to it.

## Structure

- `PortAllocator.OnRange` says that an allocator searches in its range, `Move.onRange` that this
  stays so.
- `Move.length_ports_le` bounds the ports that a task owes.
- `Supply` puts both beside the holdings of the tasks; `Supply.exists_lease` is the count, and
  `ports_never_run_out` says what follows for every run with an accepted configuration.
-/

namespace OnionPool

/-! ## The allocator stays on its range -/

/-- The allocator leases the ports of a range, and looks for the next one in it. -/
structure PortAllocator.OnRange (r : PortRange) (a : PortAllocator) : Prop where
  range : a.range = r
  cursor : a.cursor ∈ r

section OnRange

variable {r : PortRange} {s s' : Site}

/-- A lease, successful or not, leaves the allocator on its range. -/
theorem PortAllocator.OnRange.lease {a b : PortAllocator} {port : Option Port} (h : a.OnRange r)
    (lease : a.lease = (port, b)) : b.OnRange r := by
  have hrange : a.lease.2.range = a.range := PortAllocator.range_lease a
  have hcursor : a.lease.2.cursor ∈ a.range := by
    apply PortAllocator.cursor_lease_mem
    rw [h.range]
    exact h.cursor
  rw [lease] at hrange hcursor
  exact ⟨hrange.trans h.range, h.range ▸ hcursor⟩

theorem PortAllocator.OnRange.release {a : PortAllocator} (h : a.OnRange r) (port : Port) :
    (a.release port).OnRange r := ⟨h.range, h.cursor⟩

theorem Chore.Part.onRange {chores rest : List Chore} (h : Chore.Part s chores rest s')
    (ports : s.ports.OnRange r) : s'.ports.OnRange r := by
  cases h with
  | release port => exact ports.release port
  | _ => exact ports

theorem Startup.Advance.onRange {now : Time} {stop : StopSignal} {t t' : Startup}
    {a : Startup.Action} (h : t.Advance now stop s a t' s') (ports : s.ports.OnRange r) :
    s'.ports.OnRange r := by
  cases h with
  | reject circuit left => cases left <;> exact ports
  | undo chores rest cause site' stage part => exact part.onRange ports
  | _ => exact ports

end OnRange

/-! ## How many ports are owed -/

section Lengths

variable {s s' : Site}

/-- A part of chores owes no more ports than before. -/
theorem Chore.Part.length_ports_le {chores rest : List Chore} (h : Chore.Part s chores rest s') :
    (Chore.ports rest).length ≤ (Chore.ports chores).length := by
  cases h with
  | release port => exact Nat.le_succ _
  | _ => exact Nat.le_refl _

@[simp] theorem Startup.ports_undo (s : Startup) (circuit : Option WorkerId) :
    Chore.ports (s.undo circuit) = [s.forwarderPort, s.circuitPort] := by
  cases circuit <;> rfl

/-- A start that goes on owes two ports at most, if it did so before. -/
theorem Startup.Advance.length_ports_le {now : Time} {stop : StopSignal} {t t' : Startup}
    {a : Startup.Action} (h : t.Advance now stop s a t' s')
    (modest : (Chore.ports t.debts).length ≤ 2) : (Chore.ports t'.debts).length ≤ 2 := by
  -- Until something is undone, what is owed for the ports are the two releases at the end.
  have hundo : ∀ (u : Startup) circuit, (Chore.ports (u.undo circuit)).length ≤ 2 := by simp
  cases h with
  | undo chores rest cause site' stage part =>
    have hdebts : t.debts = chores := by simp only [Startup.debts, stage]
    exact part.length_ports_le.trans (hdebts ▸ modest)
  | settle circuit w => cases circuit <;> exact Nat.le_refl _
  | undone => exact Nat.zero_le _
  | spawn circuit => exact hundo _ circuit
  | _ => exact hundo _ _

end Lengths

namespace Pool

section Moves

variable {now : Time} {p q : Pool} {t t' : Task} {r : PortRange}

/-- Every move leaves the allocator on its range. -/
theorem Move.onRange (h : Move now p t t' q) (ports : p.site.ports.OnRange r) :
    q.site.ports.OnRange r := by
  cases h with
  | leaseFirst circuit allocator lease => exact ports.lease lease
  | leaseNone allocator lease => exact ports.lease lease
  | leaseSecond circuit forwarder allocator lease => exact ports.lease lease
  | leaseOne circuit allocator lease => exact (ports.lease lease).release circuit
  | startup s s' a site step => exact (Startup.advance_of_step step).onRange ports
  | discardChore chores rest site part => exact part.onRange ports
  | tearChore chores rest site part => exact part.onRange ports
  | _ => exact ports

/-- A task that moves owes two ports at most, if it did so before. -/
theorem Move.length_ports_le (h : Move now p t t' q) (modest : t.ports.length ≤ 2) :
    t'.ports.length ≤ 2 := by
  cases h with
  | startup s s' a site step => exact (Startup.advance_of_step step).length_ports_le modest
  | discardChore chores rest site part =>
    exact part.length_ports_le.trans modest
  | tearChore chores rest site part =>
    exact part.length_ports_le.trans modest
  | advance s s' leases pair => cases leases <;> cases pair <;> exact modest
  -- All others owe nothing, or what is to be released at the end of a start or of a teardown.
  | leaseFirst => exact Nat.le_succ 1
  | leaseSecond | launch | ready | discard | count | register | retire | deregister =>
    exact Nat.le_refl 2
  | _ => exact Nat.zero_le _

/-- Whether the next thing that a task does may be to look for a port. -/
def Task.isToLease (t : Task) : Bool :=
  match t.state, t.activity with
  | .allocating, .entering | _, .leasing _ => true
  | _, _ => false

/-- A task without a permit owes no port. -/
theorem Task.Proper.length_ports_le (h : t.Proper) (modest : t.ports.length ≤ 2) :
    t.ports.length ≤ 2 * t.holdsPermit.toNat := by
  cases h with
  | gone => exact Nat.zero_le _
  | _ => exact modest

/-- A task that is to lease a port holds less than its share. -/
theorem Task.Proper.length_ports_lt (h : t.Proper) (toLease : t.isToLease = true) :
    t.ports.length < 2 * t.holdsPermit.toNat := by
  cases h with
  | allocating => exact Nat.zero_lt_two
  | leasing circuit => exact Nat.one_lt_two
  | failing s early | pausing s early | paused s early | stopped s early =>
    rcases early with rfl | rfl <;> cases toLease
  | _ => cases toLease

/-- A move that reports that no port was left is a search that failed. -/
theorem Move.lease_eq_none (h : Move now p t t' q) {failure : Failure}
    (reported : .leaseFailed failure ∈ q.notes) :
    .leaseFailed failure ∈ p.notes ∨
      (t.isToLease = true ∧ ∃ ports, p.site.ports.lease = (none, ports)) := by
  cases h with
  | leaseNone ports lease => exact .inr ⟨rfl, ports, lease⟩
  | leaseOne circuit ports lease => exact .inr ⟨rfl, ports, lease⟩
  | startFails | retire | advance =>
    -- The report that was added is another one.
    rcases List.mem_cons.mp reported with hother | hold
    · cases hother
    · exact .inl hold
  | _ => exact .inl reported

end Moves

/-! ## The invariant -/

/-- The tasks hold what is out, and each of them two ports at most; the allocator is on its
range. -/
structure Supply (r : PortRange) (p : Pool) : Prop where
  holdings : Holdings p
  modest : ∀ t ∈ p.tasks, t.ports.length ≤ 2
  allocator : p.site.ports.OnRange r

section Invariant

variable {now : Time} {p q : Pool} {t : Task} {r : PortRange}

/-- The invariant is kept by every step. -/
theorem Supply.step {a : Action} (h : Supply r p) (hs : p.step now a = some q) : Supply r q := by
  have hholdings := h.holdings.step hs
  cases change_of_step h.holdings.proper hs with
  | worker w a site step =>
    obtain ⟨worker, process, -, -, rfl⟩ := Site.processStep_eq_some step
    exact ⟨hholdings, h.modest, h.allocator⟩
  | admitPair => exact ⟨hholdings, forall_mem_admit h.modest (Nat.zero_le _), h.allocator⟩
  | task i a t t' q there move =>
    have hmodest := move.length_ports_le (h.modest t (List.mem_of_getElem? there))
    exact ⟨hholdings, forall_mem_set h.modest hmodest, move.onRange h.allocator⟩
  | _ => exact ⟨hholdings, h.modest, h.allocator⟩

/-- As long as some task may look for a port, fewer than two for each permit are leased. -/
theorem Supply.leased_lt (h : Supply r p) (ht : t ∈ p.tasks) (toLease : t.isToLease = true) :
    p.site.ports.leased.size < 2 * p.plan.size := by
  have hle : ∀ u ∈ p.tasks, u.ports.length ≤ 2 * u.holdsPermit.toNat := fun u hu =>
    (h.holdings.proper u hu).length_ports_le (h.modest u hu)
  -- All tasks but this one have two ports at most, and this one has fewer.
  have hsum := sum_map_add_le ht hle
  have hfewer := (h.holdings.proper t ht).length_ports_lt toLease
  have hleased := h.holdings.total_length
  have hpermits := h.holdings.permits
  have hdouble : (p.tasks.map fun u => 2 * u.holdsPermit.toNat).sum =
      2 * (p.tasks.map fun u => u.holdsPermit.toNat).sum := List.sum_map_mul_left ..
  unfold total at hleased hpermits
  omega

/-- A task that looks for a port finds one, if the range has two ports for each permit. -/
theorem Supply.exists_lease (h : Supply r p) (ample : 2 * p.plan.size ≤ r.span)
    (ht : t ∈ p.tasks) (toLease : t.isToLease = true) :
    ∃ port ports, p.site.ports.lease = (some port, ports) := by
  have hrange := h.allocator.range
  apply PortAllocator.exists_lease
  · rw [hrange]
    exact h.allocator.cursor
  · rw [hrange]
    exact Nat.lt_of_lt_of_le (h.leased_lt ht toLease) ample

/-- Nobody reports that no port was left. -/
theorem Supply.silent (h : Supply r p) (ample : 2 * p.plan.size ≤ r.span) {a : Action}
    (hs : p.step now a = some q) (silent : ∀ failure, .leaseFailed failure ∉ p.notes) :
    ∀ failure, .leaseFailed failure ∉ q.notes := by
  cases change_of_step h.holdings.proper hs with
  | task i a t t' q there move =>
    intro failure reported
    rcases move.lease_eq_none reported with hold | ⟨toLease, ports, hnone⟩
    · exact silent failure hold
    · obtain ⟨port, ports', hsome⟩ :=
        h.exists_lease ample (List.mem_of_getElem? there) toLease
      rw [hnone] at hsome
      cases hsome
  | _ => exact silent

end Invariant

/-! ## Runs -/

section Runs

variable {plan : Plan} {proxyPlan : Proxy.Plan} {range : PortRange}
  {folders : List (Seat × Contents)} {now : Time} {p : Pool}

/-- Before the run no port is out. -/
theorem Supply.opening (ascending : range.floor < range.ceiling) :
    Supply range (opening plan proxyPlan range folders) where
  holdings := .opening plan proxyPlan range folders
  modest := List.forall_mem_nil _
  allocator := ⟨rfl, PortRange.floor_mem ascending⟩

/-- The invariant holds in every run on an ascending range. -/
theorem Supply.of_trace {allowed : Action → Prop} {since : Time} {done : List (Time × Action)}
    (ascending : range.floor < range.ceiling)
    (run : machine.Trace allowed since (Pool.opening plan proxyPlan range folders) done now p) :
    Supply range p := by
  induction run with
  | refl => exact .opening ascending
  | act _ _ hs ih => exact ih.step hs
  | tick _ _ ih => exact ih

/-- The invariant holds in every state that is reached on an ascending range. -/
theorem Supply.of_reach (ascending : range.floor < range.ceiling)
    (h : machine.Reach (fun _ => True) (Pool.opening plan proxyPlan range folders) now p) :
    p.plan = plan ∧ Supply range p := by
  refine h.induct (P := fun _ (s : Pool) => s.plan = plan ∧ Supply range s)
    ⟨rfl, .opening ascending⟩ ?_ fun ih _ => ih
  intro now s s' a ih _ hs
  exact ⟨(change_of_step ih.2.holdings.proper hs).plan_eq.trans ih.1, ih.2.step hs⟩

/-- **Ports never run out**: with the range and the pool size of an accepted configuration, in every
run, whatever happens to the pairs and whoever changes the registry, a task that looks for a port
finds one, and no task ever reports that no port was left. -/
theorem ports_never_run_out {env : Environment} {c : Config} (accepted : Config.read env = .ok c)
    (size : plan.size = c.pool.size)
    (h : machine.Reach (fun _ => True) (opening plan proxyPlan c.ports folders) now p) :
    (c.ports.floor < c.ports.ceiling ∧ 1 ≤ c.pool.size ∧ c.pool.size ≤ c.ports.span / 2) ∧
    (∀ t ∈ p.tasks, t.isToLease = true →
      ∃ port ports, p.site.ports.lease = (some port, ports)) ∧
    ∀ failure, .leaseFailed failure ∉ p.notes := by
  obtain ⟨ascending, populated, half⟩ := Config.accepted_of_read accepted
  have hample : 2 * plan.size ≤ c.ports.span := by
    rw [size]
    omega
  refine ⟨⟨ascending, populated, half⟩, ?_, ?_⟩
  · obtain ⟨hplan, hsupply⟩ := Supply.of_reach ascending h
    intro t ht toLease
    exact hsupply.exists_lease (hplan ▸ hample) ht toLease
  · -- The induction is on the run: at each step nobody has reported anything yet.
    induction h with
    | start => exact fun failure hmem => by cases hmem
    | act hreach _ hs ih =>
      obtain ⟨hplan, hsupply⟩ := Supply.of_reach ascending hreach
      exact hsupply.silent (hplan ▸ hample) hs ih
    | tick _ _ ih => exact ih

/-- Room for two pairs, and one port more. -/
def tightEnvironment : Environment := fun name =>
  if name = "PORT_RANGE_END" then .text "30005"
  else if name = "POOL_SIZE" then .text "2"
  else .unset

/-- Two pairs are admitted; the first one has its ports, and the second one needs another. -/
def bothLease : List Action := [
  .proxy (.prepare none), .proxy (.write none), .proxy (.rename none), .proxy (.spawn 1 0),
  .proxy .judge, .begin, .admitPair, .admitPair,
  .task 0 .proceed, .task 0 .proceed, .task 1 .proceed]

/-- The pool of two pairs before its run. -/
def tight : Pool :=
  opening ⟨2, 1000, 10⟩ ⟨⟨8080, none, 256, .roundRobin⟩, ⟨0, 100, 1⟩, "haproxy"⟩ ⟨30000, 30005⟩ []

/-- The pool when three ports are leased, and a fourth one is needed. -/
def tightLeasing : Pool := (machine.play 0 bothLease tight).getD tight

/-- Three of five ports are leased, and the search for the fourth one succeeds. -/
theorem ports_never_run_out_in_tight :
    ∃ c, Config.read tightEnvironment = .ok c ∧ c.ports = ⟨30000, 30005⟩ ∧ c.pool.size = 2 ∧
      machine.play 0 bothLease tight = some tightLeasing ∧
      tightLeasing.site.ports.inUse = [30000, 30001, 30002] ∧
      (∃ t ∈ tightLeasing.tasks, t.isToLease = true) ∧
      ∃ port ports, tightLeasing.site.ports.lease = (some port, ports) := by
  obtain ⟨c, hread, hports, hsize⟩ : ∃ c, Config.read tightEnvironment = .ok c ∧
      c.ports = ⟨30000, 30005⟩ ∧ c.pool.size = 2 := ⟨_, rfl, rfl, rfl⟩
  have hplay : machine.play 0 bothLease tight = some tightLeasing := by rfl
  have hreach : machine.Reach (fun _ => True) tight 0 tightLeasing :=
    .of_play (fun _ _ => trivial) hplay
  have htight : tight = opening ⟨2, 1000, 10⟩ tight.proxy.plan c.ports [] := by
    rw [hports]
    rfl
  rw [htight] at hreach
  have hneeds : ∃ t ∈ tightLeasing.tasks, t.isToLease = true := by
    have hany : tightLeasing.tasks.any (·.isToLease) = true := by rfl
    simpa using hany
  obtain ⟨t, ht, toLease⟩ := hneeds
  have hfinds := (ports_never_run_out hread hsize.symm hreach).2.1 t ht toLease
  exact ⟨c, hread, hports, hsize, hplay, by rfl, ⟨t, ht, toLease⟩, hfinds⟩

end Runs

end Pool

end OnionPool
