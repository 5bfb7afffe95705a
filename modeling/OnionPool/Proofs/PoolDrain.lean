import OnionPool.Proofs.PoolAccounting
import OnionPool.Proofs.Quietness

/-!
# A pool that is told to stop drains

From the moment at which the signal to stop is raised no pair is admitted, registered or counted as
started any more, in whatever phase each pair is then. And when the pool has returned, nothing is
left of all the pairs that it ever started.

## Structure

- `Owned` is the invariant of what pairs leave behind: every directory and every process that
  somebody holds is owed by a task, unless it is a directory that could not be removed.
  `Change.owes` is the step.
- `Closed` relates a pool whose signal was raised to the pool at that moment.
- `shutdown_drains` puts both together, with the accounts.
-/

namespace OnionPool

/-! ## Processes stay sound -/

/-- The invariant of every process that was ever started. -/
def Site.Sound (s : Site) : Prop := ∀ w ∈ s.workers, w.process.Sound

theorem Site.sound_iff {s : Site} : s.Sound ↔ s.SoundFrom 0 := by
  constructor
  · intro h w worker _ hthere
    exact h worker (List.mem_of_getElem? hthere)
  · intro h worker hworker
    obtain ⟨w, hthere⟩ := List.mem_iff_getElem?.mp hworker
    exact h w worker (Nat.zero_le w) hthere

theorem Site.Sound.process? {s : Site} (h : s.Sound) {w : WorkerId} {process : Process}
    (there : s.process? w = some process) : process.Sound := by
  obtain ⟨worker, hworker, rfl⟩ := Option.map_eq_some_iff.mp there
  exact h worker (List.mem_of_getElem? hworker)

theorem Site.Sound.processStep {now : Time} {s s' : Site} (h : s.Sound) {w : WorkerId}
    {a : Process.Action} (hs : s.processStep now w a = some s') : s'.Sound := by
  rw [Site.sound_iff] at h ⊢
  exact h.processStep hs

namespace Pool

/-- A move adds only sound processes to the site. -/
theorem Move.sound {now : Time} {p q : Pool} {t t' : Task} (move : Move now p t t' q)
    (h : p.site.Sound) : q.site.Sound := by
  rw [Site.sound_iff] at h ⊢
  cases move with
  | startup s s' a site step => exact (Startup.advance_of_step step).soundFrom h
  | discardChore chores rest site part => exact part.soundFrom h
  | tearChore chores rest site part => exact part.soundFrom h
  | _ => exact h

/-- All processes stay sound. -/
theorem Change.sound {now : Time} {p q : Pool} {a : Action} (h : Change now p a q)
    (sound : p.site.Sound) : q.site.Sound := by
  cases h with
  | worker w a site step => exact sound.processStep step
  | task i a t t' r there move => exact move.sound sound
  | _ => exact sound

/-! ## What pairs leave behind -/

/-- Something that is there is to be undone by a task. -/
def Owes (p : Pool) (b : Belonging) : Prop := ∃ t ∈ p.tasks, b ∈ Chore.belongings t.debts

/-- Whatever is there is owed by a task or could not be removed, all processes are sound, and when
the pool has returned all tasks are gone. -/
structure Owned (p : Pool) : Prop where
  belongings : ∀ b, p.site.Has b → p.Owes b ∨ p.site.Forgoes b
  sound : p.site.Sound
  returned : p.runner = .returned → ∀ t ∈ p.tasks, t.holdsPermit = false

section Ownership

variable {now : Time} {p q : Pool} {a : Action} {b : Belonging}

/-- What could not be removed before a step could not be removed after it. -/
theorem Change.forgone (h : Change now p a q) (holdings : Holdings p) :
    p.site.forgone ⊆ q.site.forgone := by
  cases h with
  | worker w a site step => exact (Site.exchange_of_processStep step []).forgone
  | task i a t t' r there move => exact (move.exchange (holdings.backs there)).forgone
  | _ => exact List.Subset.refl _

/-- Whatever is there after a step is owed then, or it was there before and nobody owed it, or it
could not be removed. -/
theorem Change.owes (h : Change now p a q) (holdings : Holdings p) (hb : q.site.Has b) :
    q.Owes b ∨ (p.site.Has b ∧ ¬ p.Owes b) ∨ q.site.Forgoes b := by
  have hstays : p.site.Has b → p.tasks ⊆ q.tasks →
      q.Owes b ∨ (p.site.Has b ∧ ¬ p.Owes b) ∨ q.site.Forgoes b := by
    intro hbefore hsubset
    by_cases howes : p.Owes b
    · obtain ⟨t, ht, hbt⟩ := howes
      exact .inl ⟨t, hsubset ht, hbt⟩
    · exact .inr (.inl ⟨hbefore, howes⟩)
  cases h with
  | raise | desert | proxy | begin | close | finish => exact hstays hb (List.Subset.refl _)
  | worker w a site step =>
    obtain ⟨worker, process, -, -, rfl⟩ := Site.processStep_eq_some step
    exact hstays (Site.has_setProcess.mp hb) (List.Subset.refl _)
  | admitPair => exact hstays hb (List.subset_append_left ..)
  | task i a t t' r there move =>
    -- A move exchanges belongings for debts, one by one, save for what cannot be removed.
    rcases (move.exchange (holdings.backs there)).belongings b hb with
      hnew | ⟨hbefore, hother⟩ | hforgone
    · exact .inl ⟨t', List.mem_set (List.getElem?_eq_some_iff.mp there).1 _, hnew⟩
    · by_cases howes : p.Owes b
      · -- The task that owes it is another one, and stays where it is.
        obtain ⟨u, hu, hbu⟩ := howes
        exact .inl ⟨u, mem_set_of_ne there hu (by rintro rfl; exact hother hbu), hbu⟩
      · exact .inr (.inl ⟨hbefore, howes⟩)
    · exact .inr (.inr hforgone)

/-- The invariant is kept by every step. -/
theorem Owned.step (h : Owned p) (accounts : Accounts p) (hs : p.step now a = some q) :
    Owned q := by
  have change := change_of_step accounts.proper hs
  constructor
  case belongings =>
    intro b hb
    rcases change.owes accounts.holdings hb with howes | ⟨hbefore, hnobody⟩ | hforgone
    · exact .inl howes
    · have hearlier := (h.belongings b hbefore).resolve_left hnobody
      exact .inr (hearlier.mono (change.forgone accounts.holdings))
    · exact .inr hforgone
  case sound => exact change.sound h.sound
  case returned =>
    cases change with
    | raise | desert | proxy | worker => exact h.returned
    | begin | close => exact fun hrunner => by cases hrunner
    | admitPair runner => exact fun hrunner => by cases runner.symm.trans hrunner
    | finish runner idle => exact fun _ => idle
    | task i a t t' r there move =>
      -- A task that moves has a permit, so the pool has not returned.
      intro hreturned
      have hbefore : p.runner = .returned := move.frame.2.2.2 ▸ hreturned
      have hgone := h.returned hbefore t (List.mem_of_getElem? there)
      rw [move.holdsPermit] at hgone
      cases hgone

/-- The invariant holds in every run that starts with an empty work directory. -/
theorem Owned.of_reach {plan : Plan} {proxyPlan : Proxy.Plan} {range : PortRange}
    (h : machine.Reach Action.IsOwn (opening plan proxyPlan range []) now p) :
    (p.plan = plan ∧ Accounts p) ∧ Owned p := by
  refine h.induct (P := fun _ (s : Pool) => (s.plan = plan ∧ Accounts s) ∧ Owned s) ⟨?_, ?_⟩ ?_
    fun ih _ => ih
  · have hstart : machine.Reach Action.IsOwn (opening plan proxyPlan range []) 0
        (opening plan proxyPlan range []) := .start
    exact Accounts.of_reach hstart
  · refine ⟨fun b hb => ?_, ?_, fun _ => ?_⟩
    · cases b with
      | folder seat => cases hb
      | process w => obtain ⟨worker, hthere, -⟩ := hb; cases hthere
    · intro w hw; cases hw
    · intro t ht; cases ht
  · intro now s s' a ih ha hs
    have hplan := (change_of_step ih.1.2.proper hs).plan_eq
    exact ⟨⟨hplan.trans ih.1.1, ih.1.2.step ha hs⟩, ih.2.step ih.1.2 hs⟩

/-- Nothing is left of all the pairs that the pool has ever started. -/
structure Drained (p : Pool) : Prop where
  reaped : ∀ w ∈ p.site.workers, w.process.reaped?.isSome = true
  folders : p.site.folders = []
  ports : p.site.ports.inUse = []
  registry : p.proxy.registry = .empty
  live : p.stats.live = 0
  retired : p.stats.retired = p.stats.started
  permits : p.available = p.plan.size

/-- A pool that could remove all directories has given back everything when all its tasks are gone,
and nothing happens of itself any more. -/
theorem Owned.drained (h : Owned p) (accounts : Accounts p) (forgone : p.site.forgone = [])
    (quiet : machine.Quiet now p) (returned : p.runner = .returned) : Drained p := by
  -- A proper task without a permit is gone, and owes nothing.
  have hgone : ∀ t ∈ p.tasks, t = ⟨.done, none, none, .gone⟩ := by
    intro t ht
    have hpermit := h.returned returned t ht
    cases accounts.proper t ht with
    | gone => rfl
    | _ => cases hpermit
  -- Hence nothing is there, since somebody would owe it.
  have hnothing : ∀ b, ¬ p.site.Has b := by
    intro b hb
    obtain ⟨t, ht, hbt⟩ := (h.belongings b hb).resolve_right (Site.not_forgoes forgone b)
    rw [hgone t ht] at hbt
    cases hbt
  -- The accounts balance, and all that the tasks have is nothing.
  have hbalanced := accounts.balanced fun t ht => by rw [hgone t ht]; rfl
  have hcount : ∀ f : Task → Bool, f ⟨.done, none, none, .gone⟩ = false → p.tasks.countP f = 0 := by
    intro f hf
    refine List.countP_eq_zero.mpr fun t ht => ?_
    rw [hgone t ht, hf]
    decide
  have hlive : p.stats.live = 0 := hbalanced.live.trans (hcount _ (by decide))
  constructor
  case reaped =>
    -- Nobody holds the process, and its monitor has nothing left to do.
    intro w hw
    obtain ⟨i, hi⟩ := List.mem_iff_getElem?.mp hw
    refine (h.sound w hw).reaped_of_quiet (fun a ha => quiet_worker quiet hi ha) (.inl ?_)
    cases hheld : w.isHeld with
    | false => rfl
    | true => exact absurd ⟨w, hi, hheld⟩ (hnothing (.process i))
  case folders =>
    cases hfolders : p.site.folders with
    | nil => rfl
    | cons f rest =>
      have hhas : p.site.Has (.folder f.1) := by simp [Site.Has, Site.hasFolder, hfolders]
      exact absurd hhas (hnothing _)
  case ports =>
    have hports : p.tasks.flatMap Task.ports = [] := by
      refine List.flatMap_eq_nil_iff.mpr fun t ht => ?_
      rw [hgone t ht]
      rfl
    exact (hports ▸ hbalanced.leased).nil_eq.symm
  case registry =>
    have hports : p.tasks.filterMap Task.registeredPort? = [] := by
      refine List.filterMap_eq_nil_iff.mpr fun t ht => ?_
      rw [hgone t ht]
      rfl
    have hregistry : [] = p.proxy.registry.toList := (hports ▸ hbalanced.registry).nil_eq
    apply PortSet.ext
    intro x
    rw [← PortSet.mem_toList, ← hregistry]
    simp
  case live => exact hlive
  case retired => rw [hbalanced.started, hlive, Nat.zero_add]
  case permits =>
    have hpermits := hbalanced.permits
    rwa [hcount _ rfl, Nat.add_zero] at hpermits

end Ownership

/-! ## Nobody new -/

/-- The next thing that a task does with the registry is to register its pair. -/
def Task.IsToRegister (t : Task) : Prop :=
  t.activity = .leaving .launched ∨ t.state = .registered ∧ t.activity = .entering

/-- What follows from the moment at which the signal was raised, when the pool was `p`. -/
structure Closed (p q : Pool) : Prop where
  raised : q.stop.raised = true
  admitted : q.tasks.length = p.tasks.length
  started : q.stats.started = p.stats.started
  registered : ∀ (i : Nat) (t : Task), q.tasks[i]? = some t → t.state = .registered →
    ∃ t₀ : Task, p.tasks[i]? = some t₀ ∧ (t₀.state = .registered ∨ t₀.IsToRegister)
  toRegister : ∀ (i : Nat) (t : Task), q.tasks[i]? = some t → t.IsToRegister →
    ∃ t₀ : Task, p.tasks[i]? = some t₀ ∧ t₀.IsToRegister

section Closing

variable {now : Time} {p q r : Pool} {t t' : Task} {i : Nat} {a : Action}

theorem launched_of_next {s : PairState} {e : PairEvent} (next : s.next? e = some .registered) :
    e = .launched := by
  cases s <;> cases e <;> first | rfl | (revert next; decide)

/-- Once the signal is raised, a move starts no pair, and leads to a registered pair only on the
way that the pair has already taken. -/
theorem Move.closed (move : Move now p t t' q) (raised : p.stop.raised = true) :
    q.stats.started = p.stats.started ∧
      (t'.state = .registered → t.state = .registered ∨ t.IsToRegister) ∧
      (t'.IsToRegister → t.IsToRegister) := by
  cases move with
  -- A pair that comes too late is discarded, not counted.
  | count pair open_ => rw [raised] at open_; cases open_
  | advance s s' leases pair e next =>
    -- The state of a registered pair is entered from a launched one only.
    have hlaunched : s' = .registered → e = .launched := fun h => launched_of_next (h ▸ next)
    refine ⟨rfl, fun h => .inr (.inl (congrArg _ (hlaunched h))), fun h => ?_⟩
    rcases h with h | ⟨h, -⟩
    · cases h
    · exact .inl (congrArg _ (hlaunched h))
  | register | retire =>
    refine ⟨rfl, fun _ => .inl rfl, fun h => ?_⟩
    rcases h with h | ⟨-, h⟩ <;> cases h
  | pause s early | resume s early | quit s early =>
    refine ⟨rfl, fun h => ?_, fun h => ?_⟩
    · exact .inl h
    · rcases h with h | ⟨-, h⟩ <;> cases h
  | _ =>
    refine ⟨rfl, fun h => ?_, fun h => ?_⟩
    · cases h
    · rcases h with h | ⟨-, h⟩ <;> cases h

theorem Closed.refl (raised : p.stop.raised = true) : Closed p p where
  raised := raised
  admitted := rfl
  started := rfl
  registered _ t there h := ⟨t, there, .inl h⟩
  toRegister _ t there h := ⟨t, there, h⟩

/-- A pool that is closed stays so by every step. -/
theorem Closed.step (h : Closed p q) (accounts : Accounts q) (hs : q.step now a = some r) :
    Closed p r := by
  cases change_of_step accounts.proper hs with
  | raise => exact { h with raised := rfl }
  | admitPair runner stop => simp [StopSignal.isOver, h.raised] at stop
  | task i a t t' r there move =>
    obtain ⟨hstarted, hregistered, htoRegister⟩ := move.closed h.raised
    -- The task in a place is the one that has moved, or was there before.
    have hplace : ∀ {j : Nat} {u : Task}, (q.tasks.set i t')[j]? = some u →
        (i = j ∧ u = t') ∨ q.tasks[j]? = some u := by
      intro j u hu
      by_cases hij : i = j
      · subst hij
        rw [List.getElem?_set_self (List.getElem?_eq_some_iff.mp there).1] at hu
        exact .inl ⟨rfl, (Option.some.inj hu).symm⟩
      · exact .inr ((List.getElem?_set_ne hij).symm.trans hu)
    constructor
    case raised => exact move.frame.2.2.1 ▸ h.raised
    case admitted => exact List.length_set.trans h.admitted
    case started => exact hstarted.trans h.started
    case registered =>
      intro j u hu hstate
      rcases hplace hu with ⟨rfl, rfl⟩ | hu
      · rcases hregistered hstate with hstate | hway
        · exact h.registered i t there hstate
        · obtain ⟨t₀, ht₀, hway₀⟩ := h.toRegister i t there hway
          exact ⟨t₀, ht₀, .inr hway₀⟩
      · exact h.registered j u hu hstate
    case toRegister =>
      intro j u hu hway
      rcases hplace hu with ⟨rfl, rfl⟩ | hu
      · exact h.toRegister i t there (htoRegister hway)
      · exact h.toRegister j u hu hway
  | _ => exact { h with }

/-- A task that is not on its way to register its pair leaves the registry alone, or takes its port
out of it. -/
theorem Move.proxy_of_not_toRegister (move : Move now p t t' q) (not : ¬ t.IsToRegister) :
    q.proxy = p.proxy ∨ ∃ port, q.proxy = p.proxy.deregister port := by
  cases move with
  | register pair => exact absurd (.inr ⟨rfl, rfl⟩) not
  | deregister pair => exact .inr ⟨pair.forwarderPort, rfl⟩
  | _ => exact .inl rfl

/-- A task on the way to register its pair does not wait. -/
theorem Task.IsToRegister.isInside (h : t.IsToRegister) : t.isInside = true := by
  rcases h with hleaving | ⟨hstate, hentering⟩
  · simp [Task.isInside, hleaving]
  · simp [Task.isInside, hentering, hstate]

end Closing

/-! ## Runs that are told to stop -/

section Runs

variable {plan : Plan} {proxyPlan : Proxy.Plan} {range : PortRange} {now later : Time} {p q : Pool}

/-- From the moment at which the signal is raised, the pool is closed. -/
theorem Closed.of_run (h : machine.Reach Action.IsOwn (opening plan proxyPlan range []) now p)
    (raised : p.stop.raised = true) (r : machine.Run Action.IsOwn now p later q) : Closed p q := by
  have haccounts : Accounts p := (Accounts.of_reach h).2
  refine (r.induct (P := fun _ (s : Pool) => Accounts s ∧ Closed p s) ⟨haccounts, .refl raised⟩ ?_
    fun ih _ => ih).2
  intro now s s' a ih ha hs
  exact ⟨ih.1.step ha hs, ih.2.step ih.1 hs⟩

/-- **Shutdown drains**: from the moment at which the signal to stop is raised, no pair is admitted
or counted as started. A pair is registered after it only if its task was on the way to that; so
none is if all tasks wait at that moment. When the pool has returned on a system that obeys, and
everything has happened that can happen then, nothing is left of the pairs. -/
theorem shutdown_drains
    (h : machine.Reach Action.IsOwn (opening plan proxyPlan range []) now p)
    (raised : p.stop.raised = true) (r : machine.Run Action.IsOwn now p later q) :
    Closed p q ∧
    ((∀ t ∈ p.tasks, t.isInside = false) → ∀ i a q', q.step later (.task i a) = some q' →
      q'.proxy = q.proxy ∨ ∃ port, q'.proxy = q.proxy.deregister port) ∧
    (machine.Reach Action.Obeyed (opening plan proxyPlan range []) later q →
      q.runner = .returned → machine.Quiet later q → q.plan = plan ∧ Drained q) := by
  have hclosed := Closed.of_run h raised r
  obtain ⟨⟨hplan, haccounts⟩, howned⟩ := Owned.of_reach (h.append r)
  refine ⟨hclosed, fun waits i a q' hstep => ?_, fun obeyed returned quiet => ?_⟩
  · cases change_of_step haccounts.proper hstep with
    | task _ _ t t' r there move =>
      refine move.proxy_of_not_toRegister fun hway => ?_
      -- The task was on its way when the signal was raised, but all tasks were waiting then.
      obtain ⟨t₀, hthere, hway₀⟩ := hclosed.toRegister i t there hway
      have hwaits := waits t₀ (List.mem_of_getElem? hthere)
      rw [hway₀.isInside] at hwaits
      cases hwaits
  · exact ⟨hplan, howned.drained haccounts (forgone_of_run obeyed.run) quiet returned⟩

/-- A pool for one pair. -/
def single : Pool :=
  opening ⟨1, 1000, 10⟩ ⟨⟨8080, none, 256, .roundRobin⟩, ⟨100, 200, 1⟩, "haproxy"⟩ ⟨30000, 30002⟩ []

/-- A pair comes to serve, and the signal to stop is raised. -/
def serveAndRaise : List Action := [
  .proxy (.prepare none), .proxy (.write none), .proxy (.rename none), .proxy (.spawn 1 0),
  .proxy .judge, .begin, .admitPair,
  .task 0 .proceed, .task 0 .proceed, .task 0 .proceed, .task 0 .proceed,
  .task 0 (.startup (.prepare [])), .task 0 (.startup (.spawn 0)), .task 0 (.startup .proceed),
  .task 0 (.startup (.prepare [])), .task 0 (.startup (.spawn 0)), .task 0 (.startup .proceed),
  .task 0 .proceed, .task 0 .proceed, .task 0 .proceed, .task 0 .proceed, .proxy .receive, .raise]

/-- A process is terminated. -/
def kill (w : WorkerId) : List Action := [
  .task 0 .proceed, .worker w (.look 0), .worker w (.send 0), .worker w .take, .worker w .collect,
  .worker w .drain, .worker w .publish, .worker w (.leave 0), .task 0 .proceed]

/-- The pair is retired and taken down, and the pool returns. -/
def drain : List Action :=
  [.close, .task 0 (.retire .shutdown), .task 0 .proceed, .task 0 .proceed, .proxy .receive] ++
    kill 1 ++ kill 0 ++
    [.task 0 .proceed, .task 0 .proceed, .task 0 .proceed, .task 0 .proceed, .task 0 .proceed,
      .task 0 .proceed, .task 0 .proceed, .task 0 .proceed, .finish]

/-- The pool does this by itself, and nothing resists it. -/
theorem isOwn_serveAndRaise : ∀ a ∈ serveAndRaise, a.IsOwn ∧ a.Obeyed := by
  simp [serveAndRaise, Action.IsOwn, Proxy.Action.KeepsRegistry, Action.Obeyed, TaskAction.Obeyed,
    Startup.Action.Obeyed]

theorem isOwn_drain : ∀ a ∈ drain, a.IsOwn ∧ a.Obeyed := by
  simp [drain, kill, Action.IsOwn, Proxy.Action.KeepsRegistry, Action.Obeyed, TaskAction.Obeyed]

def singleRaised : Pool := (machine.play 0 serveAndRaise single).getD single

def singleDrained : Pool := (machine.play 0 drain singleRaised).getD single

theorem quiet_singleDrained : machine.Quiet 0 singleDrained := by
  have hgone : ∀ t ∈ singleDrained.tasks, t = ⟨.done, none, none, .gone⟩ := by
    intro t ht
    exact List.mem_singleton.mp ht
  refine quiet_of_returned rfl hgone (Proxy.quiet_of_resting ?_) ?_
  · refine ⟨.inr ⟨0, 0, _, rfl, by decide⟩, rfl, rfl, fun g hg => ?_, rfl,
      fun i process there a ha => ?_⟩
    · cases hg
    · match i with
      | 0 => cases there; exact Process.quiet_of_unasked rfl rfl rfl rfl ha
      | i + 1 => cases there
  · intro w hw a ha
    rcases List.mem_pair.mp hw with rfl | rfl
    · exact Process.quiet_of_over rfl rfl ha
    · exact Process.quiet_of_over rfl rfl ha

/-- A pair that serves when the signal is raised is taken down, and counted. -/
theorem shutdown_drains_single :
    machine.play 0 serveAndRaise single = some singleRaised ∧
      machine.play 0 drain singleRaised = some singleDrained ∧ Drained singleDrained ∧
      singleDrained.stats.retired = 1 := by
  have hserve : machine.play 0 serveAndRaise single = some singleRaised := by rfl
  have hdrain : machine.play 0 drain singleRaised = some singleDrained := by rfl
  have hreach : machine.Reach (fun a => a.IsOwn ∧ a.Obeyed) single 0 singleRaised :=
    .of_play isOwn_serveAndRaise hserve
  have hrun : machine.Run (fun a => a.IsOwn ∧ a.Obeyed) 0 singleRaised 0 singleDrained :=
    .play .refl isOwn_drain hdrain
  have hown : ∀ a : Action, a.IsOwn ∧ a.Obeyed → a.IsOwn := fun _ ha => ha.1
  have hobeyed := (hreach.append hrun).mono fun _ ha => ha.2
  obtain ⟨-, -, hdrained⟩ := shutdown_drains (hreach.mono hown) rfl (hrun.mono hown)
  exact ⟨hserve, hdrain, (hdrained hobeyed rfl quiet_singleDrained).2, by rfl⟩

end Runs

end Pool

end OnionPool
