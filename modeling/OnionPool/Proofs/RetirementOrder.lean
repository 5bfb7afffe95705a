import OnionPool.Proofs.PoolUndoing

/-!
# The order of a retirement

A pair that was registered is taken down step by step: its port is withdrawn from the registry, then
its processes are terminated, then its directories are removed, then its ports are released, and its
permit is returned last. Nobody else does any of this in its place, since what the pair owns it owns
alone; so the order holds for all steps of the pool, however the pairs interleave. It takes a system
that obeys: a directory that cannot be removed is given up, and its port is released all the same.

## Structure

- `Chore.rank` orders the chores of a teardown, and `Pair.rank_teardown` says that they are done in
  this order.
- `Retirement` is the history of a pair since it was registered, and `Retirement.step` goes on with
  it; `Retirement.earlier` says what has been done before a chore.
- `retirement_keeps_order` reads the order off the history.
-/

namespace OnionPool

/-! ## The order of the chores -/

namespace Chore

/-- The chore that a chore began as. -/
def origin : Chore → Chore
  | await w _ => stop w
  | c => c

/-- The chores with lower ranks are done first. -/
def rank : Chore → Nat
  | stop _ | await _ _ => 0
  | clear _ => 1
  | release _ => 2

section Lists

variable {chores : List Chore} {w : WorkerId} {seat : Seat} {port : Port}

theorem mem_processes_of_origin (h : .stop w ∈ chores.map origin) : w ∈ processes chores := by
  obtain ⟨c, hc, horigin⟩ := List.mem_map.mp h
  cases c <;> cases horigin <;> exact List.mem_filterMap.mpr ⟨_, hc, rfl⟩

theorem mem_seats_of_origin (h : .clear seat ∈ chores.map origin) : seat ∈ seats chores := by
  obtain ⟨c, hc, horigin⟩ := List.mem_map.mp h
  cases c <;> cases horigin
  exact mem_seats.mpr hc

theorem mem_ports_of_origin (h : .release port ∈ chores.map origin) : port ∈ ports chores := by
  obtain ⟨c, hc, horigin⟩ := List.mem_map.mp h
  cases c <;> cases horigin
  exact List.mem_filterMap.mpr ⟨_, hc, rfl⟩

end Lists

end Chore

/-- The chores of a teardown are in the order of their ranks. -/
theorem Pair.rank_teardown (p : Pair) : p.teardown.Pairwise (·.rank ≤ ·.rank) := by
  simp [teardown, Chore.rank]

namespace Pool

/-! ## The history of a pair that was registered -/

/-- Whether the pair of a task has come to be registered. -/
def Task.hasServed (t : Task) : Bool :=
  match t.state with
  | .registered | .retiring | .done => true
  | .allocating | .starting => false

/-- A chore of a teardown is done: its process is reaped, or what it is for has been done. -/
def Accomplished (first : Pool) (done : List (Time × Action)) (p : Pool) : Chore → Prop
  | .stop w => p.site.isReaped w = true
  | c => machine.Occurred (Does c) first done

/-- The history of a pair since it was registered, when its task is `t` now. -/
structure Retirement (pair : Pair) (first : Pool) (done : List (Time × Action)) (p : Pool)
    (t : Task) : Prop where
  served : t.hasServed = true
  /-- The chores of the teardown are done in their order. -/
  owed : t.debts.map Chore.origin <:+ pair.teardown
  accomplished : ∀ c ∈ pair.teardown, c ∈ t.debts.map Chore.origin ∨ Accomplished first done p c
  withdrawn : t.pair = some pair ∨
    t.pair = none ∧ machine.Occurred (Withdraws pair.forwarderPort) first done

section History

variable {now : Time} {p q first : Pool} {t t' : Task} {i : Nat} {a : Action} {c d : Chore}
  {pair : Pair} {done : List (Time × Action)}

/-- Whoever has served still has in the next state. -/
theorem hasServed_of_next {s s' : PairState} {e : PairEvent} (next : s.next? e = some s')
    (leases : Option (Port × Port)) (pair : Option Pair) (activity activity' : Activity)
    (served : Task.hasServed ⟨s, leases, pair, activity⟩ = true) :
    Task.hasServed ⟨s', leases, pair, activity'⟩ = true := by
  cases s with
  | allocating | starting => cases served
  | registered | retiring | done => cases e <;> cases next <;> rfl

/-- What the task of a pair that was registered does: it withdraws the port, does a part of its next
chore, or does nothing to what pairs share. -/
theorem Move.of_hasServed (h : Move now p t t' q) (served : t.hasServed = true) :
    t'.hasServed = true ∧
      (t'.pair = t.pair ∧ t'.debts = t.debts ∧ q.site = p.site ∨
        (∃ pair, t.pair = some pair ∧ t'.pair = none ∧ t'.debts = t.debts ∧ q.site = p.site ∧
          t.advertised = [pair.forwarderPort] ∧
          q.proxy = p.proxy.deregister pair.forwarderPort) ∨
        t.pair = none ∧ t'.pair = none ∧ t.made = t.seats ∧
          Chore.Part p.site t.debts t'.debts q.site) := by
  cases h with
  | deregister pair => exact ⟨rfl, .inr (.inl ⟨pair, rfl, rfl, rfl, rfl, rfl, rfl⟩)⟩
  | tearChore chores rest site part =>
    exact ⟨rfl, .inr (.inr ⟨rfl, rfl, rfl, part⟩)⟩
  | advance s s' leases pair e next =>
    refine ⟨hasServed_of_next next leases pair _ _ served, .inl ⟨rfl, ?_, rfl⟩⟩
    cases leases <;> cases pair <;> rfl
  | register | retire | tornDown | finish | returnPermit => exact ⟨rfl, .inl ⟨rfl, rfl, rfl⟩⟩
  | pause s early | resume s early | quit s early => rcases early with rfl | rfl <;> cases served
  | _ => cases served

/-- What has been done stays done. -/
theorem Accomplished.step (h : Accomplished first done p c) (change : Change now p a q) :
    Accomplished first (done ++ [(now, a)]) q c := by
  cases c with
  | stop w => exact change.isReaped h
  | await | clear | release => exact Machine.Occurred.append h _

/-- A part of some chores leaves all of them to be done, or accomplishes the first one, unless a
directory could not be removed. -/
theorem accomplished_of_part {chores rest : List Chore} {site : Site}
    (part : Chore.Part p.site chores rest site) (hsite : q.site = site)
    (forgone : site.forgone = p.site.forgone) (owned : Owned p) (backed : p.site.Backs chores)
    (spared : ∀ w, .stop w ∈ chores → p.site.Spares w)
    (furnished : ∀ seat ∈ Chore.seats chores, p.site.hasFolder seat = true)
    (replay : machine.replay done first = some p) (hs : p.step now a = some q) :
    rest.map Chore.origin = chores.map Chore.origin ∨
      ∃ c, chores.map Chore.origin = c :: rest.map Chore.origin ∧
        Accomplished first (done ++ [(now, a)]) q c := by
  cases part with
  | stop w process rest => exact .inl rfl
  | skip w rest gone =>
    -- The process was started.
    obtain ⟨worker, hthere, -⟩ := spared w (List.mem_cons_self ..)
    simp [Site.process?, hthere] at gone
  | await w call rest returned =>
    refine .inr ⟨.stop w, rfl, ?_⟩
    obtain ⟨process, hprocess, hreturned⟩ := (Option.any_eq_true ..).mp returned
    -- Who is done with the process was told after it was reaped.
    have hdone : process.calls[call]? = some .returned := by
      simpa [Process.hasReturned] using hreturned
    have hreaped : p.site.isReaped w = true := by
      rw [Site.isReaped, hprocess]
      exact (owned.sound.process? hprocess).returned call hdone
    show q.site.isReaped w = true
    rw [hsite, Site.isReaped_eq, Site.reapedAt?_drop, ← Site.isReaped_eq]
    exact hreaped
  | clear seat rest =>
    refine .inr ⟨.clear seat, rfl, Machine.Occurred.last replay hs ?_⟩
    show p.site.Undoes q.site _
    rw [hsite]
    exact ⟨furnished seat (List.mem_cons_self ..), Site.hasFolder_clear_self⟩
  | forgo seat left rest => exact absurd forgone (List.cons_ne_self _ _)
  | release port rest =>
    refine .inr ⟨.release port, rfl, Machine.Occurred.last replay hs ?_⟩
    have hleased : port ∈ p.site.ports.leased := by
      rw [← PortSet.count_pos_iff]
      exact (List.count_pos_iff.mpr (List.mem_cons_self ..)).trans_le (backed port)
    show p.site.Undoes q.site _
    rw [hsite]
    exact ⟨hleased, fun h => (PortSet.mem_erase.mp h).1 rfl⟩

/-- Nothing happens to a pair while its task does nothing for it. -/
theorem Retirement.frame (h : Retirement pair first done p t) (change : Change now p a q)
    (served : t'.hasServed = true) (samePair : t'.pair = t.pair) (debts : t'.debts = t.debts) :
    Retirement pair first (done ++ [(now, a)]) q t' where
  served := served
  owed := debts ▸ h.owed
  accomplished c hc := by
    rw [debts]
    exact (h.accomplished c hc).imp_right (·.step change)
  withdrawn := by
    rw [samePair]
    exact h.withdrawn.imp_right fun ⟨hnone, hwithdrawn⟩ => ⟨hnone, hwithdrawn.append _⟩

/-- The history goes on with every move of the task of the pair. -/
theorem Retirement.move (h : Retirement pair first done p t) (there : p.tasks[i]? = some t)
    (move : Move now p t t' q) (accounts : Accounts p) (owned : Owned p) (ownership : Ownership p)
    (replay : machine.replay done first = some p) {b : TaskAction} (obeyed : b.Obeyed)
    (hs : p.step now (.task i b) = some { q with tasks := p.tasks.set i t' }) :
    Retirement pair first (done ++ [(now, .task i b)]) { q with tasks := p.tasks.set i t' } t' := by
  have hmem := List.mem_of_getElem? there
  have hchange := change_of_step accounts.proper hs
  obtain ⟨hserved, ⟨hpair, hdebts, -⟩ | ⟨pair', hpair, hnone, hdebts, -, hadvertised, hproxy⟩ |
    ⟨hnone, hnone', hmade, part⟩⟩ := move.of_hasServed h.served
  · exact h.frame hchange hserved hpair hdebts
  · -- The port of the pair is withdrawn now.
    have hsame : pair' = pair := by
      rcases h.withdrawn with hpair' | ⟨hpair', -⟩
      · exact Option.some.inj (hpair.symm.trans hpair')
      · rw [hpair] at hpair'
        cases hpair'
    subst hsame
    have hregistry : q.proxy.registry = p.proxy.registry.erase pair'.forwarderPort := by
      rw [hproxy]
      exact Proxy.registry_request _
    have hkept := fun c hc => (h.accomplished c hc).imp_right (·.step hchange)
    refine ⟨hserved, hdebts ▸ h.owed, hdebts ▸ hkept, .inr ⟨hnone, .last replay hs ?_⟩⟩
    refine ⟨accounts.mem_registry there hadvertised, fun hmem => ?_⟩
    exact (PortSet.mem_erase.mp (hregistry ▸ hmem)).1 rfl
  · -- The next chore is done, or a part of it.
    have hwithdrawn : machine.Occurred (Withdraws pair.forwarderPort) first done := by
      rcases h.withdrawn with hpair | ⟨-, hwithdrawn⟩
      · rw [hnone] at hpair
        cases hpair
      · exact hwithdrawn
    have hfurnished : ∀ seat ∈ t.seats, p.site.hasFolder seat = true := fun seat hseat =>
      ownership.furnished t hmem seat (hmade ▸ hseat)
    have hkept := fun c hc => (h.accomplished c hc).imp_right (·.step hchange)
    have hsite : Pool.site { q with tasks := p.tasks.set i t' } = q.site := rfl
    have hforgone := forgone_of_step accounts.proper (a := .task i b) obeyed hs
    rcases accomplished_of_part part hsite hforgone owned (accounts.holdings.backs there)
      (ownership.spared t hmem) hfurnished replay hs with hsame | ⟨c, hchores, hdone⟩
    · exact ⟨hserved, hsame ▸ h.owed, hsame ▸ hkept, .inr ⟨hnone', hwithdrawn.append _⟩⟩
    · have howed := h.owed
      rw [hchores] at howed hkept
      refine ⟨hserved, (List.suffix_cons ..).trans howed, fun d hd => ?_,
        .inr ⟨hnone', hwithdrawn.append _⟩⟩
      rcases hkept d hd with hd | hd
      · rcases List.mem_cons.mp hd with rfl | hd
        · exact .inr hdone
        · exact .inl hd
      · exact .inr hd

/-- The history goes on with every step of the pool. -/
theorem Retirement.step (h : Retirement pair first done p t) (there : p.tasks[i]? = some t)
    (accounts : Accounts p) (owned : Owned p) (ownership : Ownership p)
    (replay : machine.replay done first = some p) (obeyed : a.Obeyed)
    (hs : p.step now a = some q) :
    ∃ t', q.tasks[i]? = some t' ∧ Retirement pair first (done ++ [(now, a)]) q t' := by
  have hchange := change_of_step accounts.proper hs
  have hframe := h.frame hchange h.served rfl rfl
  cases hchange with
  | task j b u u' r there' move =>
    by_cases hji : j = i
    · subst hji
      cases there.symm.trans there'
      refine ⟨u', ?_, h.move there move accounts owned ownership replay obeyed hs⟩
      exact List.getElem?_set_self (List.getElem?_eq_some_iff.mp there).1
    · exact ⟨t, (List.getElem?_set_ne hji).trans there, hframe⟩
  | admitPair =>
    refine ⟨t, ?_, hframe⟩
    exact (List.getElem?_append_left (List.getElem?_eq_some_iff.mp there).1).trans there
  | _ => exact ⟨t, there, hframe⟩

/-- The history begins when the pair is registered. -/
theorem Retirement.registered (proper : t.Proper) (state : t.state = .registered)
    (hpair : t.pair = some pair) : Retirement pair p [] p t := by
  cases proper with
  | registering | serving | served =>
    cases hpair
    exact ⟨rfl, List.suffix_rfl, fun c hc => .inl hc, .inl rfl⟩
  | launched | retiring => cases state
  | _ => cases hpair

/-- Whatever happens after a pair was registered, the history of its retirement goes on. -/
theorem Retirement.of_trace {plan : Plan} {proxyPlan : Proxy.Plan} {range : PortRange}
    {since : Time}
    (h : machine.Reach (fun a => a.IsOwn ∧ a.Obeyed) (opening plan proxyPlan range []) since first)
    (there : first.tasks[i]? = some t) (state : t.state = .registered) (hpair : t.pair = some pair)
    (run : machine.Trace (fun a => a.IsOwn ∧ a.Obeyed) since first done now p) :
    ∃ t', p.tasks[i]? = some t' ∧ Retirement pair first done p t' := by
  induction run with
  | refl =>
    have hproper := (Owned.of_reach (h.mono fun _ ha => ha.1)).1.2.proper t
      (List.mem_of_getElem? there)
    exact ⟨t, there, .registered hproper state hpair⟩
  | act run ha hs ih =>
    obtain ⟨t', hthere, hretirement⟩ := ih
    have hreach := (h.append run.run).mono fun _ ha => ha.1
    obtain ⟨⟨-, haccounts⟩, howned⟩ := Owned.of_reach hreach
    exact hretirement.step hthere haccounts howned (Ownership.of_reach hreach).2 run.replay ha.2 hs
  | tick run hq ih => exact ih

/-- Before a chore of the teardown is done, and once it is, those with lower ranks are done. -/
theorem Retirement.earlier (h : Retirement pair first done p t) (hc : c ∈ pair.teardown)
    (next : c ∉ t.debts.map Chore.origin ∨ ∃ rest, t.debts.map Chore.origin = c :: rest)
    (hd : d ∈ pair.teardown) (lower : d.rank < c.rank) : Accomplished first done p d := by
  obtain ⟨before, hbefore⟩ := h.owed
  have hrank := pair.rank_teardown
  rw [← hbefore, List.pairwise_append] at hrank
  obtain ⟨-, howed, hacross⟩ := hrank
  refine (h.accomplished d hd).resolve_left fun howes => ?_
  -- The chore `d` would be done after `c`, though its rank is lower.
  have hle : c.rank ≤ d.rank := by
    rcases next with hgone | ⟨rest, hnext⟩
    · rw [← hbefore, List.mem_append] at hc
      exact hacross c (hc.resolve_right hgone) d howes
    · rw [hnext] at howes howed
      rcases List.mem_cons.mp howes with rfl | hrest
      · exact Nat.le_refl _
      · exact (List.pairwise_cons.mp howed).1 d hrest
  exact absurd lower (Nat.not_lt.mpr hle)

/-- Before the port is withdrawn, the whole teardown is owed. -/
theorem Task.Proper.debts_of_pair (h : t.Proper) (hpair : t.pair = some pair) :
    t.debts = pair.teardown := by
  cases h with
  | launched | registering | serving | served | retiring => cases hpair; rfl
  | _ => cases hpair

/-- Whoever does a chore of the teardown does the next one of the pair, or it was done before; and
the port was withdrawn. -/
theorem Retirement.does (h : Retirement pair first done p t) (there : p.tasks[i]? = some t)
    (accounts : Accounts p) (ownership : Ownership p) (hs : p.step now a = some q)
    (hc : c ∈ pair.teardown) (does : Does c p a q) :
    (c ∉ t.debts.map Chore.origin ∨ ∃ rest, t.debts.map Chore.origin = c :: rest) ∧
      machine.Occurred (Withdraws pair.forwarderPort) first done := by
  obtain ⟨j, u, hj, hnone, rest, hdebts⟩ := (change_of_step accounts.proper hs).undoes does
  have hfull : t.pair = some pair → c ∈ t.debts.map Chore.origin := fun hpair => by
    rw [(accounts.proper t (List.mem_of_getElem? there)).debts_of_pair hpair]
    exact hc
  by_cases hij : i = j
  · subst hij
    cases there.symm.trans hj
    refine ⟨.inr ⟨rest.map Chore.origin, ?_⟩, ?_⟩
    · rw [hdebts]
      cases c with
      | await => exact absurd does id
      | stop | clear | release => rfl
    · rcases h.withdrawn with hpair | ⟨-, hwithdrawn⟩
      · rw [hnone] at hpair
        cases hpair
      · exact hwithdrawn
  · -- Another task does it, so this one does not owe it any more.
    have hgone : c ∉ t.debts.map Chore.origin := by
      intro howes
      have hnext : c ∈ u.debts := hdebts ▸ List.mem_cons_self ..
      cases c with
      | await => exact does
      | stop w =>
        exact not_mem_of_total_le (f := Task.processes) (ownership.total_processes_le w) there hj
          hij (Chore.mem_processes_of_origin howes) (Chore.mem_processes_of_stop hnext)
      | clear seat =>
        have honce := ownership.total_seats_le accounts.holdings seat
        exact not_mem_of_total_le (f := Task.seats) honce there hj hij
          (Chore.mem_seats_of_origin howes) (Chore.mem_seats.mpr hnext)
      | release port =>
        exact not_mem_of_total_le (f := Task.ports) (accounts.holdings.total_ports_le port) there hj
          hij (Chore.mem_ports_of_origin howes) (List.mem_filterMap.mpr ⟨_, hnext, rfl⟩)
    refine ⟨.inl hgone, ?_⟩
    rcases h.withdrawn with hpair | ⟨-, hwithdrawn⟩
    · exact absurd (hfull hpair) hgone
    · exact hwithdrawn

/-- A task that returns its permit owes nothing any more. -/
theorem Move.debts_of_return (h : Move now p t t' q) (returned : t'.holdsPermit = false) :
    t.debts = [] := by
  cases h with
  | returnPermit => rfl
  | _ => cases returned

/-- A task that returns its permit owes nothing any more. -/
theorem Change.debts_of_return (h : Change now p a q) (there : p.tasks[i]? = some t)
    (there' : q.tasks[i]? = some t') (held : t.holdsPermit = true)
    (returned : t'.holdsPermit = false) : t.debts = [] := by
  have hsame : t ≠ t' := by
    rintro rfl
    rw [held] at returned
    cases returned
  cases h with
  | task j b u u' r hj move =>
    by_cases hji : j = i
    · subst hji
      cases there.symm.trans hj
      rw [List.getElem?_set_self (List.getElem?_eq_some_iff.mp there).1] at there'
      cases there'
      exact move.debts_of_return returned
    · rw [List.getElem?_set_ne hji] at there'
      exact absurd (Option.some.inj (there.symm.trans there')) hsame
  | admitPair =>
    rw [List.getElem?_append_left (List.getElem?_eq_some_iff.mp there).1] at there'
    exact absurd (Option.some.inj (there.symm.trans there')) hsame
  | _ => exact absurd (Option.some.inj (there.symm.trans there')) hsame

end History

/-! ## All retirements -/

/-- What a step may do to a pair, after what has happened since the pair was registered: its port is
withdrawn before one of its processes is asked to terminate, both processes are reaped before one of
its directories is removed, both directories are removed before one of its ports is released, and
both ports are released before its permit is returned. -/
structure KeepsOrder (pair : Pair) (i : Nat) (first : Pool) (done : List (Time × Action)) (p : Pool)
    (a : Action) (q : Pool) : Prop where
  asks : ∀ w ∈ [pair.forwarder, pair.circuit], Does (.stop w) p a q →
    machine.Occurred (Withdraws pair.forwarderPort) first done
  removes : ∀ seat ∈ [⟨.forwarder, pair.forwarderPort⟩, ⟨.circuit, pair.circuitPort⟩],
    Does (.clear seat) p a q →
      p.site.isReaped pair.forwarder = true ∧ p.site.isReaped pair.circuit = true
  releases : ∀ port ∈ [pair.forwarderPort, pair.circuitPort], Does (.release port) p a q →
    machine.Occurred (Does (.clear ⟨.forwarder, pair.forwarderPort⟩)) first done ∧
      machine.Occurred (Does (.clear ⟨.circuit, pair.circuitPort⟩)) first done
  returns : ∀ t t', p.tasks[i]? = some t → q.tasks[i]? = some t' → t.holdsPermit = true →
    t'.holdsPermit = false → machine.Occurred (Does (.release pair.forwarderPort)) first done ∧
      machine.Occurred (Does (.release pair.circuitPort)) first done

section Runs

variable {plan : Plan} {proxyPlan : Proxy.Plan} {range : PortRange} {since : Time} {first : Pool}

/-- **Retirements keep their order, and nobody shares what it owns**, in every run on a system that
obeys and on a work directory that is empty at first, however the pairs interleave. At any moment no
two tasks hold the same port or own the same directory, every directory belongs to a leased port,
and nobody has begun to kill a pair whose port is in the registry. And whatever happens after a pair
was registered keeps to the order of its retirement. -/
theorem retirement_keeps_order
    (h : machine.Reach (fun a => a.IsOwn ∧ a.Obeyed) (opening plan proxyPlan range []) since
      first) :
    Exclusive first ∧
    ∀ i t pair, first.tasks[i]? = some t → t.state = .registered → t.pair = some pair →
      ∀ done now p, machine.Trace (fun a => a.IsOwn ∧ a.Obeyed) since first done now p →
        ∀ a q, p.step now a = some q → KeepsOrder pair i first done p a q := by
  have hown : ∀ a : Action, a.IsOwn ∧ a.Obeyed → a.IsOwn := fun _ ha => ha.1
  have hforgone := forgone_of_run (h.mono fun _ ha => ha.2).run
  obtain ⟨⟨-, haccounts⟩, howned⟩ := Owned.of_reach (h.mono hown)
  refine ⟨(Ownership.of_reach (h.mono hown)).2.exclusive haccounts howned hforgone,
    fun i t pair there state hpair done now p run a q hs => ?_⟩
  have hreach := (h.append run.run).mono hown
  obtain ⟨⟨-, haccounts⟩, -⟩ := Owned.of_reach hreach
  obtain ⟨t, there, hretirement⟩ := Retirement.of_trace h there state hpair run
  have hownership := (Ownership.of_reach hreach).2
  -- Whatever is done for the pair was the next of its chores, so those before are over.
  have hdoes := fun {c} => hretirement.does (c := c) there haccounts hownership hs
  constructor
  case asks =>
    intro w hw does
    exact (hdoes (by simp_all [Pair.teardown]) does).2
  case removes =>
    intro seat hseat does
    have hc : .clear seat ∈ pair.teardown := by simp_all [Pair.teardown]
    have hearlier := fun {d} => hretirement.earlier (d := d) hc (hdoes hc does).1
    exact ⟨hearlier (d := .stop _) (by simp [Pair.teardown]) (Nat.lt_succ_self _),
      hearlier (d := .stop _) (by simp [Pair.teardown]) (Nat.lt_succ_self _)⟩
  case releases =>
    intro port hport does
    have hc : .release port ∈ pair.teardown := by simp_all [Pair.teardown]
    have hearlier := fun {d} => hretirement.earlier (d := d) hc (hdoes hc does).1
    exact ⟨hearlier (d := .clear _) (by simp [Pair.teardown]) (Nat.lt_succ_self _),
      hearlier (d := .clear _) (by simp [Pair.teardown]) (Nat.lt_succ_self _)⟩
  case returns =>
    intro u u' hu hu' held returned
    cases there.symm.trans hu
    have hnone := (change_of_step haccounts.proper hs).debts_of_return hu hu' held returned
    have hall := hretirement.accomplished
    rw [hnone] at hall
    exact ⟨(hall (.release _) (by simp [Pair.teardown])).resolve_left List.not_mem_nil,
      (hall (.release _) (by simp [Pair.teardown])).resolve_left List.not_mem_nil⟩

/-- The pool for one pair, when the pair was taken down and its permit is about to be returned. -/
def singleLeaving : Pool := (machine.play 0 (drain.take 30) singleRaised).getD single

/-- The pair that served releases both ports before its permit. -/
theorem retirement_keeps_order_single :
    machine.play 0 serveAndRaise single = some singleRaised ∧
      machine.play 0 (drain.take 30) singleRaised = some singleLeaving ∧
      singleRaised.proxy.registry.toList = [30001] ∧ Exclusive singleRaised ∧
      ∃ q, singleLeaving.step 0 (.task 0 .proceed) = some q ∧ q.available = 1 ∧
        machine.Occurred (Does (.release 30001)) singleRaised ((drain.take 30).map (0, ·)) ∧
        machine.Occurred (Does (.release 30000)) singleRaised ((drain.take 30).map (0, ·)) := by
  have hserve : machine.play 0 serveAndRaise single = some singleRaised := by rfl
  have hdrain : machine.play 0 (drain.take 30) singleRaised = some singleLeaving := by rfl
  have hreach : machine.Reach (fun a => a.IsOwn ∧ a.Obeyed) single 0 singleRaised :=
    .of_play isOwn_serveAndRaise hserve
  have hrun : machine.Trace (fun a => a.IsOwn ∧ a.Obeyed) 0 singleRaised
      ([] ++ (drain.take 30).map (0, ·)) 0 singleLeaving :=
    .play .refl (fun a ha => isOwn_drain a (List.mem_of_mem_take ha)) hdrain
  obtain ⟨hexclusive, horder⟩ := retirement_keeps_order hreach
  obtain ⟨q, hq, havailable, hgone⟩ : ∃ q, singleLeaving.step 0 (.task 0 .proceed) = some q ∧
      q.available = 1 ∧ q.tasks[0]? = some ⟨.done, none, none, .gone⟩ := ⟨_, rfl, rfl, rfl⟩
  have hkept := horder 0 _ ⟨30000, 30001, 0, 1⟩ rfl rfl rfl _ 0 _ hrun _ q hq
  exact ⟨hserve, hdrain, by rfl, hexclusive, q, hq, havailable,
    hkept.returns _ _ rfl hgone rfl rfl⟩

end Runs

end Pool

end OnionPool
