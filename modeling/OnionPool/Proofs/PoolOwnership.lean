import OnionPool.Proofs.PairConfinement
import OnionPool.Proofs.PoolDrain

/-!
# Who owns what

Ports, directories and processes are owned by tasks, each by one task at a time: a task owns what it
owes. Ports are leased once, and a directory is removed by the task that releases its port;
processes are numbered as they are spawned, and only the task that spawned one will stop it.

## Structure

- `Move.confined`, `Move.seated` and `Move.furnished` say for a move of a task what is known for the
  steps of a pair.
- `Ownership` is the invariant, and `Ownership.of_reach` says that it holds in every run.
- `Exclusive` is what follows when the work directory is empty at first and all directories can be
  removed: no two tasks own the same, every directory belongs to a leased port, and a registered
  pair is spared.
-/

namespace OnionPool.Pool

/-! ## What a task owns -/

/-- The processes that a task is to stop. -/
def Task.processes (t : Task) : List WorkerId := Chore.processes t.debts

/-- The seats whose directories a task is to remove. -/
def Task.seats (t : Task) : List Seat := Chore.seats t.debts

/-- The seats whose directories a task has made, and not yet removed. -/
def Task.made (t : Task) : List Seat :=
  match t.leases, t.pair, t.activity with
  | none, none, .starting s => s.made
  | _, _, _ => t.seats

section Moves

variable {now : Time} {p q : Pool} {t t' : Task}

/-- A move of a task touches nothing but what the task owes, and what it makes is new. -/
theorem Move.confined (h : Move now p t t' q) : Confined p.site t.debts q.site t'.debts := by
  cases h with
  | startup s s' a site step => exact (Startup.advance_of_step step).confined
  | discardChore chores rest site part => exact part.confined
  | tearChore chores rest site part => exact part.confined
  | ready s circuit forwarder stage =>
    have hdebts : s.debts = Pair.teardown ⟨s.circuitPort, s.forwarderPort, circuit, forwarder⟩ := by
      simp only [Startup.debts, stage]
    show Confined _ s.debts _ (Pair.teardown _)
    rw [hdebts]
    exact .refl ..
  | interrupted s stage | startFails s cause stage =>
    refine .of_workers rfl (fun _ _ => rfl) (fun _ => Nat.zero_le _) fun w hw => ?_
    exact absurd hw List.not_mem_nil
  | advance s s' leases pair => cases leases <;> cases pair <;> exact .refl ..
  -- Leases and their ends touch ports only.
  | leaseFirst | leaseNone | leaseSecond | leaseOne | launch =>
    refine .of_workers rfl (fun _ _ => rfl) (fun _ => Nat.zero_le _) fun w hw => ?_
    exact absurd (Chore.mem_processes_of_stop hw) List.not_mem_nil
  | _ => exact .refl ..

/-- Whoever is to remove a directory is still to release its port. -/
theorem Move.seated (h : Move now p t t' q) (orderly : Chore.Orderly t.debts)
    (seated : Chore.Seated t.debts) : Chore.Seated t'.debts := by
  cases h with
  | launch circuit forwarder =>
    exact Startup.seated_undo ⟨circuit, forwarder, .preparing none⟩ none
  | startup s s' a site step => exact (Startup.advance_of_step step).seated orderly seated
  | ready s circuit forwarder => exact Pair.seated_teardown ⟨_, _, circuit, forwarder⟩
  | discardChore chores rest site part => exact part.seated orderly seated
  | tearChore chores rest site part => exact part.seated orderly seated
  | advance s s' leases pair => cases leases <;> cases pair <;> exact seated
  | discard pair | count pair | register pair | retire pair | deregister pair =>
    exact pair.seated_teardown
  | _ => exact fun _ => Nat.zero_le _

/-- The directories that a task has made stay there until it removes them. -/
theorem Move.furnished (h : Move now p t t' q) (once : ∀ seat, t.seats.count seat ≤ 1)
    (furnished : ∀ seat ∈ t.made, p.site.hasFolder seat = true) :
    ∀ seat ∈ t'.made, q.site.hasFolder seat = true := by
  cases h with
  | startup s s' a site step => exact (Startup.advance_of_step step).furnished furnished
  | ready s circuit forwarder stage =>
    have hmade : s.made = [⟨.forwarder, s.forwarderPort⟩, ⟨.circuit, s.circuitPort⟩] := by
      simp only [Startup.made, stage]
    intro seat hseat
    refine furnished seat ?_
    show seat ∈ s.made
    rw [hmade]
    exact hseat
  | discardChore chores rest site part => exact part.furnished once furnished
  | tearChore chores rest site part => exact part.furnished once furnished
  | advance s s' leases pair => cases leases <;> cases pair <;> exact furnished
  | discard | count | register | retire | deregister => exact furnished
  | _ => exact fun seat hseat => absurd hseat List.not_mem_nil

end Moves

/-- A task has made no directory but those that it is to remove. -/
theorem Task.mem_seats_of_made {t : Task} {seat : Seat} (h : seat ∈ t.made) : seat ∈ t.seats := by
  obtain ⟨state, leases, pair, activity⟩ := t
  cases leases with
  | some ports => exact h
  | none =>
    cases pair with
    | some pair => exact h
    | none =>
      cases activity with
      | starting s => exact Startup.mem_seats_of_made h
      | _ => exact h

/-! ## The invariant -/

/-- What tasks own they own alone: directories come with their ports, processes are owned once,
those that are still to be stopped are spared, and the directories that were made are there. -/
structure Ownership (p : Pool) : Prop where
  seated : ∀ t ∈ p.tasks, Chore.Seated t.debts
  processes : ∀ w, p.total (·.processes.count w) ≤ p.site.started w
  spared : ∀ t ∈ p.tasks, ∀ w, .stop w ∈ t.debts → p.site.Spares w
  furnished : ∀ t ∈ p.tasks, ∀ seat ∈ t.made, p.site.hasFolder seat = true

section Invariant

variable {now : Time} {p q : Pool} {t t' u : Task} {i j : Nat} {seat : Seat} {w : WorkerId}

/-- After a task was replaced, a task is the new one, or was at another place before. -/
theorem eq_or_getElem?_of_mem_set {tasks : List Task} (h : u ∈ tasks.set i t') :
    u = t' ∨ ∃ j, i ≠ j ∧ tasks[j]? = some u := by
  obtain ⟨j, hj⟩ := List.mem_iff_getElem?.mp h
  by_cases hij : i = j
  · subst hij
    have hlt : i < tasks.length := by
      simpa using (List.getElem?_eq_some_iff.mp hj).1
    rw [List.getElem?_set_self hlt] at hj
    exact .inl (Option.some.inj hj).symm
  · exact .inr ⟨j, hij, (List.getElem?_set_ne hij).symm.trans hj⟩

/-- No process is owned twice. -/
theorem Ownership.total_processes_le (h : Ownership p) (w : WorkerId) :
    p.total (·.processes.count w) ≤ 1 := by
  refine (h.processes w).trans ?_
  unfold Site.started
  split <;> decide

/-- No port is held twice. -/
theorem Holdings.total_ports_le (h : Holdings p) (x : Port) : p.total (·.ports.count x) ≤ 1 :=
  h.ports x ▸ p.site.ports.leased.count_le_one x

/-- A directory is to be removed once, since its port is leased once. -/
theorem Ownership.total_seats_le (h : Ownership p) (holdings : Holdings p) (seat : Seat) :
    p.total (·.seats.count seat) ≤ 1 := by
  refine Nat.le_trans ?_ (holdings.total_ports_le seat.port)
  exact List.sum_le_sum fun t ht => h.seated t ht seat

/-- The ownership is kept when a task moves. -/
theorem Ownership.task (h : Ownership p) (holdings : Holdings p) (there : p.tasks[i]? = some t)
    (move : Move now p t t' q) : Ownership { q with tasks := p.tasks.set i t' } := by
  have hmem := List.mem_of_getElem? there
  have hconfined := move.confined
  have hprocesses := h.total_processes_le
  have hseats := h.total_seats_le holdings
  constructor
  case seated =>
    exact forall_mem_set h.seated (move.seated (holdings.orderly t hmem) (h.seated t hmem))
  -- Whatever a task has more of is fresh, and nobody else had it.
  case processes =>
    intro w
    have htotal := total_set there q t' (·.processes.count w)
    have hfresh := hconfined.fresh w
    have hbefore := h.processes w
    simp only [Task.processes] at htotal hbefore ⊢
    omega
  case spared =>
    intro u hu w hw
    rcases eq_or_getElem?_of_mem_set hu with rfl | ⟨j, hne, hj⟩
    · have honce := fun w => (le_total there (·.processes.count w)).trans (hprocesses w)
      exact hconfined.spared honce (h.spared t hmem) w hw
    · -- Another task owns the process, so the one that has moved has not touched it.
      obtain ⟨worker, hthere, hspared⟩ := h.spared u (List.mem_of_getElem? hj) w hw
      have hother : w ∉ t.processes := not_mem_of_total_le (f := Task.processes) (hprocesses w) hj
        there hne.symm (Chore.mem_processes_of_stop hw)
      exact ⟨worker, hconfined.workers w hother worker hthere, hspared⟩
  case furnished =>
    intro u hu seat hseat
    rcases eq_or_getElem?_of_mem_set hu with rfl | ⟨j, hne, hj⟩
    · refine move.furnished (fun seat => ?_) (h.furnished t hmem) seat hseat
      exact (le_total there (·.seats.count seat)).trans (hseats seat)
    · have hother : seat ∉ t.seats := not_mem_of_total_le (f := Task.seats) (hseats seat) hj
        there hne.symm (Task.mem_seats_of_made hseat)
      have hkept := hconfined.folders seat hother
      exact hkept.trans (h.furnished u (List.mem_of_getElem? hj) seat hseat)

/-- What processes do themselves does not concern who owns them. -/
theorem Ownership.worker {a : Process.Action} {site : Site} (h : Ownership p)
    (sound : p.site.Sound) (hs : p.site.processStep now w a = some site) :
    Ownership { p with site } := by
  have ha : a ≠ .terminate := Site.ne_terminate_of_processStep hs
  obtain ⟨worker, process, hthere, hstep, rfl⟩ := Site.processStep_eq_some hs
  refine { h with processes := fun v => ?_, spared := fun t ht v hv => ?_ }
  · have hlength : (p.site.setProcess w process).workers.length = p.site.workers.length :=
      List.length_modify ..
    exact (Site.started_of_length hlength v).symm ▸ h.processes v
  · obtain ⟨old, hold, hspared⟩ := h.spared t ht v hv
    by_cases hvw : w = v
    · subst hvw
      cases hthere.symm.trans hold
      refine ⟨{ worker with process }, ?_, hspared.step ha hstep (sound worker ?_)⟩
      · rw [Site.setProcess, List.getElem?_modify_eq, hthere]
        rfl
      · exact List.mem_of_getElem? hthere
    · exact ⟨old, (Site.workers_setProcess process hvw).trans hold, hspared⟩

/-- The ownership is kept by every step. -/
theorem Ownership.step {a : Action} (h : Ownership p) (holdings : Holdings p)
    (sound : p.site.Sound) (hs : p.step now a = some q) : Ownership q := by
  cases change_of_step holdings.proper hs with
  | raise | desert | begin | close | finish | proxy => exact { h with }
  | worker w a site step => exact h.worker sound step
  | admitPair =>
    -- The new task owns nothing yet.
    have hadd := fun f => total_append p { p with available := p.available - 1 } {} f
    constructor
    case seated => exact forall_mem_admit h.seated fun _ => Nat.zero_le _
    case processes => exact fun w => (hadd (·.processes.count w)).trans_le (h.processes w)
    case spared => exact forall_mem_admit h.spared nofun
    case furnished => exact forall_mem_admit h.furnished nofun
  | task i a t t' r there move => exact h.task holdings there move

/-- Nobody shares what it owns, whatever was left behind in the work directory. -/
theorem Ownership.of_reach {plan : Plan} {proxyPlan : Proxy.Plan} {range : PortRange}
    {folders : List (Seat × Contents)}
    (h : machine.Reach Action.IsOwn (opening plan proxyPlan range folders) now p) :
    p.site.Sound ∧ Ownership p := by
  -- The induction is on the run: before each step the accounts balance.
  induction h with
  | start =>
    refine ⟨List.forall_mem_nil _, ?_⟩
    constructor
    case processes => exact fun w => Nat.zero_le _
    all_goals exact List.forall_mem_nil _
  | act hreach ha hs ih =>
    have hholdings := (Accounts.of_reach hreach).2.holdings
    exact ⟨(change_of_step hholdings.proper hs).sound ih.1, ih.2.step hholdings ih.1 hs⟩
  | tick _ _ ih => exact ih

end Invariant

/-! ## Owners -/

/-- What is registered, and what is there, belongs to one task each, and the processes of a pair
whose port is registered are spared. -/
structure Exclusive (p : Pool) : Prop where
  ports : (p.tasks.flatMap Task.ports).Nodup
  seats : (p.tasks.flatMap Task.seats).Nodup
  /-- A directory belongs to a task that holds its port. -/
  folders : ∀ seat, p.site.hasFolder seat = true →
    seat.port ∈ p.site.ports.leased ∧ ∃ t ∈ p.tasks, seat ∈ t.seats ∧ seat.port ∈ t.ports
  owners : ∀ port ∈ p.proxy.registry, ∃ t ∈ p.tasks, port ∈ t.ports
  /-- No port in the registry belongs to a pair that somebody has begun to kill. -/
  registered : ∀ t ∈ p.tasks, ∀ port ∈ t.ports, port ∈ p.proxy.registry →
    ∃ pair, t.pair = some pair ∧ port = pair.forwarderPort ∧
      p.site.Spares pair.forwarder ∧ p.site.Spares pair.circuit

section Owners

variable {p : Pool} {t : Task} {port : Port}

/-- A task has registered a port only for a pair that it has not begun to take down. -/
theorem Task.Proper.pair_of_advertised (h : t.Proper) (advertised : port ∈ t.advertised) :
    ∃ pair, t.pair = some pair ∧ port = pair.forwarderPort ∧ t.debts = pair.teardown := by
  cases h with
  | serving pair | served pair | retiring pair =>
    exact ⟨pair, rfl, List.mem_singleton.mp advertised, rfl⟩
  | failing s early | pausing s early | paused s early | stopped s early =>
    rcases early with rfl | rfl <;> cases advertised
  | _ => cases advertised

/-- When all directories could be removed, whatever there is belongs to one task. -/
theorem Ownership.exclusive (h : Ownership p) (accounts : Accounts p) (owned : Owned p)
    (forgone : p.site.forgone = []) : Exclusive p where
  ports := by
    refine List.nodup_iff_count.mpr fun x => ?_
    rw [← total_count]
    exact accounts.holdings.total_ports_le x
  seats := by
    refine List.nodup_iff_count.mpr fun seat => ?_
    rw [← total_count]
    exact h.total_seats_le accounts.holdings seat
  folders seat hseat := by
    have hbelongs := owned.belongings (.folder seat) hseat
    obtain ⟨t, ht, howes⟩ := hbelongs.resolve_right (Site.not_forgoes forgone _)
    obtain ⟨i, there⟩ := List.mem_iff_getElem?.mp ht
    have hseats := Chore.mem_seats_of_belongings howes
    have hport : seat.port ∈ t.ports := (h.seated t ht).mem_ports hseats
    refine ⟨?_, t, ht, hseats, hport⟩
    -- What a task owes is leased.
    rw [← PortSet.count_pos_iff]
    exact (List.count_pos_iff.mpr hport).trans_le (accounts.holdings.backs there seat.port)
  owners port hport := by
    have hpresent := PortSet.count_pos_iff.mpr hport
    rw [← accounts.registry port, total_count, List.count_pos_iff] at hpresent
    obtain ⟨t, ht, hadvertised⟩ := List.mem_flatMap.mp hpresent
    have hle := (accounts.proper t ht).count_advertised_le port
    exact ⟨t, ht, List.count_pos_iff.mp ((List.count_pos_iff.mpr hadvertised).trans_le hle)⟩
  registered t ht port hport hregistered := by
    obtain ⟨i, there⟩ := List.mem_iff_getElem?.mp ht
    have hadvertised := accounts.mem_advertised there hport hregistered
    obtain ⟨pair, hpair, rfl, hdebts⟩ := (accounts.proper t ht).pair_of_advertised hadvertised
    have hspared := h.spared t ht
    rw [hdebts] at hspared
    refine ⟨pair, hpair, rfl, hspared _ (List.mem_cons_self ..), hspared _ ?_⟩
    exact List.mem_cons_of_mem _ (List.mem_cons_self ..)

end Owners

end OnionPool.Pool
