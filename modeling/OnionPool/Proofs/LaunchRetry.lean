import OnionPool.Proofs.LaunchAttempts
import OnionPool.Proofs.PoolOwnership
import OnionPool.Proofs.PortSupply

/-!
# Launches are tried again

When an attempt to launch a pair has failed, the task pauses and makes another one. In between it
has nothing: whatever is there belongs to other tasks, or could not be removed. And a signal to stop
that comes in between is the end of the task; no time passes until it is gone, and no attempt is
made.

## Structure

- `Attributed` is the invariant of what is there, and `EmptyHanded` what it says of a task that owes
  nothing.
- `Ending` lists the standings from which a task comes to its end at once, and `Ending.of_trace`
  says that it does.
- `Task.Reason` says why an attempt comes out as it does, and `reason_of_step` that there is always
  a reason.
- `Between` is what is known of a task whose last attempt has failed, and
  `failed_attempts_are_repeated` puts everything together.
-/

namespace OnionPool

/-! ## What no pair has touched -/

/-- What is there though no pair has made it: a directory in which no program was prepared. -/
def Site.Untouched (s : Site) : Belonging → Prop
  | .folder seat => ∀ x ∈ s.launches, x.2 ≠ seat
  | .process _ => False

section Sites

variable {s s' : Site} {b : Belonging}

theorem Site.Untouched.of_launches (h : s.Untouched b) (launches : s'.launches = s.launches) :
    s'.Untouched b := by
  cases b with
  | folder seat => exact fun x hx => h x (launches ▸ hx)
  | process w => exact h

/-- No chore launches a program. -/
theorem Chore.Part.launches_eq {chores rest : List Chore} (h : Chore.Part s chores rest s') :
    s'.launches = s.launches := by
  cases h <;> rfl

/-- A start prepares programs only in directories that it owes. -/
theorem Startup.Advance.untouched {now : Time} {stop : StopSignal} {t t' : Startup}
    {a : Startup.Action} (h : t.Advance now stop s a t' s') (untouched : s.Untouched b)
    (other : b ∉ Chore.belongings t.debts) : s'.Untouched b := by
  -- What is prepared is launched in a seat that the start owes already.
  have hprepared : ∀ circuit, t.debts = t.undo circuit →
      s'.launches = (now, t.seat circuit) :: s.launches → s'.Untouched b := by
    intro circuit hdebts hlaunches
    cases b with
    | process w => exact untouched
    | folder seat =>
      intro x hx
      rw [hlaunches] at hx
      rcases List.mem_cons.mp hx with rfl | hx
      · rintro rfl
        exact other (hdebts ▸ t.mem_belongings_undo circuit)
      · exact untouched x hx
  cases h with
  | prepare circuit contents stage =>
    exact hprepared circuit (by simp only [Startup.debts, stage]) rfl
  | reject circuit left cause stage =>
    refine hprepared circuit (by simp only [Startup.debts, stage]) ?_
    cases left <;> rfl
  | undo chores rest cause site' stage part => exact untouched.of_launches part.launches_eq
  | _ => exact untouched.of_launches rfl

end Sites

namespace Pool

/-! ## What belongs to whom -/

/-- Whatever is there is owed by a task, or no pair has touched it, or it could not be removed; and
all processes are sound. -/
structure Attributed (p : Pool) : Prop where
  belongings : ∀ b, p.site.Has b → p.Owes b ∨ p.site.Untouched b ∨ p.site.Forgoes b
  sound : p.site.Sound

/-- The task at a place has nothing to undo: whatever is there belongs to other tasks. -/
structure EmptyHanded (i : Nat) (now : Time) (p : Pool) : Prop where
  own : ∀ t, p.tasks[i]? = some t → t.debts = []
  ports : ∀ x ∈ p.site.ports.inUse, ∃ j u, j ≠ i ∧ p.tasks[j]? = some u ∧ x ∈ u.ports
  /-- No pair has ever prepared a program in any other directory that is there, unless it could not
  be removed. -/
  folders : ∀ seat, p.site.hasFolder seat = true →
    (∃ j u, j ≠ i ∧ p.tasks[j]? = some u ∧ seat ∈ u.seats) ∨
      (∀ x ∈ p.site.launches, x.2 ≠ seat) ∨ seat ∈ p.site.forgone
  /-- Nobody else holds a process. -/
  held : ∀ w worker, p.site.workers[w]? = some worker → worker.isHeld = true →
    ∃ j u, j ≠ i ∧ p.tasks[j]? = some u ∧ w ∈ u.processes
  /-- When nothing more happens, all other programs were reaped. -/
  reaped : machine.Quiet now p → ∀ w worker, p.site.workers[w]? = some worker →
    worker.process.reaped?.isSome = true ∨
      ∃ j u, j ≠ i ∧ p.tasks[j]? = some u ∧ w ∈ u.processes

section Attribution

variable {now since : Time} {p q : Pool} {t t' : Task} {a : Action} {i : Nat} {b : Belonging}

/-- A move prepares nothing that its task does not owe. -/
theorem Move.untouched (h : Move now p t t' q) (untouched : p.site.Untouched b)
    (other : b ∉ Chore.belongings t.debts) : q.site.Untouched b := by
  cases h with
  | startup s s' a site step => exact (Startup.advance_of_step step).untouched untouched other
  | discardChore chores rest site part | tearChore chores rest site part =>
    exact untouched.of_launches part.launches_eq
  | _ => exact untouched.of_launches rfl

/-- A step prepares nothing that nobody owes. -/
theorem Change.untouched (h : Change now p a q) (untouched : p.site.Untouched b)
    (nobody : ¬ p.Owes b) : q.site.Untouched b := by
  cases h with
  | worker w a site step =>
    exact untouched.of_launches (Site.frame_of_processStep step).2.1
  | task i a t t' r there move =>
    exact move.untouched untouched fun hbt => nobody ⟨t, List.mem_of_getElem? there, hbt⟩
  | _ => exact untouched.of_launches rfl

/-- The invariant is kept by every step. -/
theorem Attributed.step (h : Attributed p) (holdings : Holdings p) (change : Change now p a q) :
    Attributed q := by
  refine ⟨fun b hb => ?_, change.sound h.sound⟩
  rcases change.owes holdings hb with howes | ⟨hbefore, hnobody⟩ | hforgone
  · exact .inl howes
  · refine .inr (((h.belongings b hbefore).resolve_left hnobody).imp ?_ ?_)
    · exact fun huntouched => change.untouched huntouched hnobody
    · exact .mono (change.forgone holdings)
  · exact .inr (.inr hforgone)

/-- The invariant holds in every run of the pool. -/
theorem Attributed.of_trace {allowed : Action → Prop} {done : List (Time × Action)} {plan : Plan}
    {proxyPlan : Proxy.Plan} {range : PortRange} {folders : List (Seat × Contents)}
    (run : machine.Trace allowed since (opening plan proxyPlan range folders) done now p) :
    Attributed p := by
  induction run with
  | refl =>
    refine ⟨fun b hb => .inr (.inl ?_), List.forall_mem_nil _⟩
    cases b with
    | folder seat => exact List.forall_mem_nil _
    | process w => obtain ⟨worker, hthere, -⟩ := hb; cases hthere
  | act hbefore _ hs ih =>
    have holdings := Holdings.of_trace hbefore
    exact ih.step holdings (change_of_step holdings.proper hs)
  | tick _ _ ih => exact ih

/-- Whoever owes nothing has nothing. -/
theorem Attributed.emptyHanded (h : Attributed p) (holdings : Holdings p)
    (there : p.tasks[i]? = some t) (debts : t.debts = []) : EmptyHanded i now p := by
  -- Whoever owes something is another task.
  have hother : ∀ {u : Task}, u ∈ p.tasks → u.debts ≠ [] →
      ∃ j, j ≠ i ∧ p.tasks[j]? = some u := by
    intro u hu hdebts
    obtain ⟨j, hj⟩ := List.mem_iff_getElem?.mp hu
    refine ⟨j, ?_, hj⟩
    rintro rfl
    cases there.symm.trans hj
    exact hdebts debts
  have hheld : ∀ w worker, p.site.workers[w]? = some worker → worker.isHeld = true →
      ∃ j u, j ≠ i ∧ p.tasks[j]? = some u ∧ w ∈ u.processes := by
    intro w worker hthere hheld
    rcases h.belongings (.process w) ⟨worker, hthere, hheld⟩ with
      ⟨u, hu, howes⟩ | huntouched | hforgone
    · obtain ⟨j, hne, hj⟩ := hother hu (by rintro hnil; rw [hnil] at howes; cases howes)
      exact ⟨j, u, hne, hj, Chore.mem_processes_of_belongings howes⟩
    · exact huntouched.elim
    · exact hforgone.elim
  constructor
  case own =>
    intro u hu
    cases there.symm.trans hu
    exact debts
  case ports =>
    intro x hx
    obtain ⟨u, hu, hxu⟩ := List.mem_flatMap.mp (holdings.perm_inUse.mem_iff.mpr hx)
    obtain ⟨j, hne, hj⟩ := hother hu (by rintro hnil; simp [Task.ports, hnil, Chore.ports] at hxu)
    exact ⟨j, u, hne, hj, hxu⟩
  case folders =>
    intro seat hseat
    refine (h.belongings (.folder seat) hseat).imp_left ?_
    rintro ⟨u, hu, howes⟩
    obtain ⟨j, hne, hj⟩ := hother hu (by rintro hnil; rw [hnil] at howes; cases howes)
    exact ⟨j, u, hne, hj, Chore.mem_seats_of_belongings howes⟩
  case held => exact hheld
  case reaped =>
    intro quiet w worker hthere
    cases hworker : worker.isHeld with
    | true => exact .inr (hheld w worker hthere hworker)
    | false =>
      refine .inl ((h.sound worker (List.mem_of_getElem? hthere)).reaped_of_quiet
        (fun a ha => quiet_worker quiet hthere ha) (.inl hworker))

end Attribution

/-! ## The end of a task between two attempts -/

/-- The standings from which a task comes to its end without another attempt: the signal to stop was
raised, or nobody is left who could raise it, while the pause lasts. -/
inductive Ending (now : Time) (p : Pool) : Standing → Prop where
  | ready (raised : p.stop.raised = true) : Ending now p .ready
  | failing (stopping : p.stop.raised = true ∨ p.stop.isOver = true ∧ 0 < p.plan.backoff) :
      Ending now p .failing
  | pausing (until_ : Time)
      (stopping : p.stop.raised = true ∨ p.stop.isOver = true ∧ now < until_) :
      Ending now p (.pausing until_)
  | paused (raised : p.stop.raised = true) : Ending now p .paused
  | closing : Ending now p .closing

section Endings

variable {now since later : Time} {p q r : Pool} {t t' : Task} {a : Action} {i : Nat}
  {x y : Standing} {es : List Attempt}

theorem isOver_of_raised (h : p.stop.raised = true) : p.stop.isOver = true := by
  simp [StopSignal.isOver, h]

/-- The signal is raised for good, so a task that ends does so afterwards. -/
theorem Ending.mono (h : Ending now p x) (plan : q.plan = p.plan)
    (raised : p.stop.raised = true → q.stop.raised = true)
    (halted : p.stop.isOver = true → q.stop.isOver = true) : Ending now q x := by
  cases h with
  | ready hraised => exact .ready (raised hraised)
  | failing stopping => exact .failing (plan ▸ stopping.imp raised (.imp_left halted))
  | pausing until_ stopping => exact .pausing until_ (stopping.imp raised (.imp_left halted))
  | paused hraised => exact .paused (raised hraised)
  | closing => exact .closing

/-- On its way to the end a task begins no attempt. -/
theorem Ending.progress (h : Ending now p x) (progress : Progress now p x es y) :
    es = [] ∧ Ending now p y := by
  cases progress with
  | stay => exact ⟨rfl, h⟩
  | dismiss | quit => exact ⟨rfl, .closing⟩
  | begin unraised | failAtOnce unraised =>
    cases h with
    | ready raised => cases raised.symm.trans unraised
  | pause jitter bound =>
    refine ⟨rfl, .pausing _ ?_⟩
    cases h with
    | failing stopping =>
      exact stopping.imp_right fun ⟨halted, hpos⟩ =>
        ⟨halted, (Nat.lt_add_of_pos_right hpos).trans_le (Nat.le_add_right ..)⟩
  | resume until_ due =>
    cases h with
    | pausing _ stopping =>
      exact ⟨rfl, .paused (stopping.resolve_right fun h => absurd due (Nat.not_le.mpr h.2))⟩
  | again =>
    cases h with
    | paused raised => exact ⟨rfl, .ready raised⟩
  | fail | interrupt | succeed | undone | retired => cases h

/-- When the pool is quiet, a task on its way to the end is gone. -/
theorem Ending.gone_of_quiet (h : Ending now p t.standing) (proper : t.Proper)
    (quiet : machine.Quiet now p) (there : p.tasks[i]? = some t) :
    t = ⟨.done, none, none, .gone⟩ := by
  have hwaits := proper.waits_of_quiet quiet there
  have hproceed := quiet_task quiet there .proceed
  have hquit := quiet_task quiet there .quit
  cases proper with
  | gone => rfl
  | stopped | done | returning => cases hproceed
  | pausing s early until_ =>
    -- The signal would end the pause.
    have hover : p.stop.isOver = true := by
      rcases early with rfl | rfl <;> cases h with
        | pausing _ stopping => exact stopping.elim isOver_of_raised (·.1)
    simp [taskStep, hover] at hquit
  | allocating => exact hwaits.elim
  | failing s early | paused s early => rcases early with rfl | rfl <;> exact hwaits.elim
  | starting s =>
    have hstanding : Ending now p (if s.isInterrupted then .undoing else .trying) := h
    split at hstanding <;> cases hstanding
  | _ => cases h

/-- A task that is gone stays so. -/
theorem Change.gone (h : Change now p a q) (there : p.tasks[i]? = some ⟨.done, none, none, .gone⟩) :
    q.tasks[i]? = some ⟨.done, none, none, .gone⟩ := by
  rcases h.task_cases i with ⟨hsame, -⟩ | ⟨-, hnone, -⟩ | ⟨b, t, t', r, -, ht, -, move⟩
  · exact hsame.trans there
  · cases hnone.symm.trans there
  · cases ht.symm.trans there
    cases move.holdsPermit

/-- A step takes a task further on its way to the end, and tells of no attempt. -/
theorem Ending.step (h : Ending now p t.standing) (there : p.tasks[i]? = some t)
    (change : Change now p a q) : attemptsOf i ((tells p a q).map (now, ·)) = [] ∧
      ∃ t', q.tasks[i]? = some t' ∧ Ending now q t'.standing := by
  have hmono : ∀ {y}, Ending now p y → Ending now q y := fun h =>
    h.mono change.plan_eq change.raised fun halted => change.isOver_iff.mpr (.inl halted)
  rcases change.task_cases i with ⟨hsame, hother⟩ | ⟨-, hnone, -⟩ |
    ⟨b, u, t', r, rfl, hu, there', move⟩
  · exact ⟨attemptsOf_tells_of_ne hother, t, hsame.trans there, hmono h⟩
  · cases hnone.symm.trans there
  · cases hu.symm.trans there
    obtain ⟨hsilent, hnext⟩ := h.progress move.progress
    refine ⟨?_, t', there', hmono hnext⟩
    rw [tells_task there there', hsilent]
    rfl

/-- **The end is at once**: a task on its way to the end makes no attempt any more, and no time
passes until it is gone. -/
theorem Ending.of_trace {allowed : Action → Prop} {more : List (Time × Action)}
    (h : Ending now p t.standing) (holdings : Holdings p) (there : p.tasks[i]? = some t)
    (run : machine.Trace allowed now p more later q) :
    attemptsOf i (attempts p more) = [] ∧
      (machine.Quiet later q ∨ now < later → q.tasks[i]? = some ⟨.done, none, none, .gone⟩) := by
  -- The task is on its way to the end until the clock moves on, and then it is gone.
  have hway : Holdings q ∧ attemptsOf i (attempts p more) = [] ∧
      ∃ u, q.tasks[i]? = some u ∧ Ending later q u.standing ∧
        (now < later → u = ⟨.done, none, none, .gone⟩) := by
    induction run with
    | refl => exact ⟨holdings, rfl, t, there, h, fun hlt => absurd hlt (Nat.lt_irrefl _)⟩
    | act hbefore _ hs ih =>
      obtain ⟨hholdings, hlog, u, hu, hending, hgone⟩ := ih
      have change := change_of_step hholdings.proper hs
      obtain ⟨hsilent, u', hu', hending'⟩ := hending.step hu change
      refine ⟨hholdings.step hs, ?_, u', hu', hending', fun hlt => ?_⟩
      · rw [attempts, Machine.chronicle_snoc tells hbefore.replay hs, attemptsOf_append, hsilent]
        exact (List.append_nil _).trans hlog
      · rw [hgone hlt] at hu
        exact Option.some.inj (hu'.symm.trans (change.gone hu))
    | tick hbefore quiet ih =>
      obtain ⟨hholdings, hlog, u, hu, hending, -⟩ := ih
      obtain rfl := hending.gone_of_quiet (hholdings.proper u (List.mem_of_getElem? hu)) quiet hu
      exact ⟨hholdings, hlog, _, hu, .closing, fun _ => rfl⟩
  obtain ⟨hholdings, hlog, u, hu, hending, hgone⟩ := hway
  refine ⟨hlog, ?_⟩
  rintro (quiet | hlt)
  · exact hending.gone_of_quiet (hholdings.proper u (List.mem_of_getElem? hu)) quiet hu ▸ hu
  · exact hgone hlt ▸ hu

end Endings

/-! ## Why an attempt comes out as it does -/

/-- Why a task in a pool tells something of its attempt when an action of it is taken. -/
inductive Task.Reason (range : PortRange) (p : Pool) (t : Task) (b : TaskAction) :
    Attempt → Prop where
  | wanted (unraised : p.stop.raised = false) : Reason range p t b .begun
  /-- The task looks for a port, and none is left. -/
  | exhausted (toLease : t.isToLease = true) (leased : ∀ x ∈ range, x ∈ p.site.ports.inUse) :
      Reason range p t b .failed
  /-- The pair did not start, and not for the signal to stop. -/
  | broken (s : Startup) (cause : Failure) (activity : t.activity = .starting s)
      (stage : s.stage = .failed cause) (other : cause ≠ .shuttingDown) :
      Reason range p t b .failed
  | stopping (halted : p.stop.isOver = true) : Reason range p t b .interrupted
  /-- Whoever is to prepare a program says that it is too late. -/
  | tooLate (left : Option Contents) (rejected : b = .startup (.reject left .shuttingDown)) :
      Reason range p t b .interrupted
  | started (pair : Pair) (activity : t.activity = .started pair)
      (unraised : p.stop.raised = false) : Reason range p t b .succeeded

section Reasons

variable {now since : Time} {p q r : Pool} {t t' : Task} {a : Action} {b : TaskAction} {i : Nat}
  {x : Attempt} {range : PortRange}

/-- Only a step of the start itself leads from a start to a start. -/
theorem startup_of_taskStep {s s' : Startup} (activity : t.activity = .starting s)
    (activity' : t'.activity = .starting s') (h : p.taskStep now t b = some (t', q)) :
    ∃ c site, b = .startup c ∧ s.Advance now p.stop p.site c s' site := by
  cases b with
  | startup c =>
    simp only [taskStep, activity] at h
    obtain ⟨⟨u, site⟩, hstep, h⟩ := Option.map_eq_some_iff.mp h
    cases h
    cases activity'
    exact ⟨c, site, rfl, Startup.advance_of_step hstep⟩
  | proceed =>
    simp only [taskStep, proceed, activity, concludeStart] at h
    split at h <;> cases h <;> cases activity'
  | retire | pause | quit | forgo => simp [taskStep, activity] at h

/-- A start is given up only when the signal to stop has come, or when it is said to be too late. -/
theorem reason_of_advance {s s' : Startup} {c : Startup.Action} {site : Site}
    (h : s.Advance now p.stop p.site c s' site)
    (givenUp : (!s.isInterrupted && s'.isInterrupted) = true) :
    p.stop.isOver = true ∨ ∃ left, c = .reject left .shuttingDown := by
  obtain ⟨hbefore, hafter⟩ : s.isInterrupted = false ∧ s'.isInterrupted = true := by
    simpa using givenUp
  rcases h.isInterrupted_iff.mp hafter with hkept | hblamed
  · cases hbefore.symm.trans hkept
  · generalize hcause : Failure.shuttingDown = cause at hblamed
    cases hblamed with
    | reject left => exact .inr ⟨left, rfl⟩
    | interrupt stopping => exact .inl stopping
    | refuse | endEarly => cases hcause

/-- Whatever a task tells, there is a reason for it. -/
theorem Task.reason_of_move (move : Move now p t t' r) (hs : p.taskStep now t b = some (t', r))
    (exact : ∀ ports, p.site.ports.lease = (none, ports) → ∀ x ∈ range, x ∈ p.site.ports.inUse)
    (told : x ∈ t.tells t') : t.Reason range p b x := by
  cases move with
  | leaseFirst circuit ports lease unraised =>
    cases List.mem_singleton.mp told
    exact .wanted unraised
  | leaseNone ports lease unraised =>
    rcases List.mem_pair.mp told with rfl | rfl
    · exact .wanted unraised
    · exact .exhausted rfl (exact ports lease)
  | leaseOne circuit ports lease =>
    cases List.mem_singleton.mp told
    exact .exhausted rfl (exact ports lease)
  | startup s s' c site step =>
    obtain ⟨c, site, rfl, hadvance⟩ := startup_of_taskStep rfl rfl hs
    replace told : x ∈ if !s.isInterrupted && s'.isInterrupted then [.interrupted] else [] := told
    split at told
    next hgivenUp =>
      cases List.mem_singleton.mp told
      rcases reason_of_advance hadvance hgivenUp with hover | ⟨left, rfl⟩
      · exact .stopping hover
      · exact .tooLate left rfl
    next => cases told
  | startFails s cause stage other =>
    cases List.mem_singleton.mp told
    exact .broken s cause rfl stage other
  | discard pair raised =>
    cases List.mem_singleton.mp told
    exact .stopping (isOver_of_raised raised)
  | count pair raised =>
    cases List.mem_singleton.mp told
    exact .started pair rfl raised
  | _ => cases told

/-- Whatever is told of a step has a reason in the task that took it. -/
theorem reason_of_step (proper : ∀ t ∈ p.tasks, t.Proper) (hs : p.step now a = some q)
    (exact : ∀ ports, p.site.ports.lease = (none, ports) → ∀ x ∈ range, x ∈ p.site.ports.inUse)
    (told : (i, x) ∈ tells p a q) :
    ∃ b t, a = .task i b ∧ p.tasks[i]? = some t ∧ t.Reason range p b x := by
  cases a with
  | task j b =>
    obtain ⟨t, t', r, there, hstep, hmove, rfl⟩ := taskStep_of_step proper hs
    have hself := List.getElem?_set_self (a := t') (List.getElem?_eq_some_iff.mp there).1
    rw [tells_task there hself] at told
    obtain ⟨y, hy, hsame⟩ := List.mem_map.mp told
    cases hsame
    exact ⟨b, t, rfl, there, Task.reason_of_move hmove hstep exact hy⟩
  | raise | desert | proxy | worker | begin | admitPair | close | finish => cases told

end Reasons

/-! ## Between two attempts -/

/-- What is known of a task at a place whose last attempt has failed at a time. -/
structure Between (i : Nat) (f now : Time) (p : Pool) : Prop where
  empty : EmptyHanded i now p
  /-- Unless the pool is to stop, the next attempt is made as soon as the pause is over. -/
  soon : p.stop.isOver = false → now ≤ f + p.plan.backoff + maxJitter p.plan.backoff ∧
    (machine.Quiet now p → now < f + p.plan.backoff + maxJitter p.plan.backoff)
  /-- If the signal to stop was raised, or nobody is left who could raise it in the pause, no
  attempt is made any more, and no time passes until the task is gone. -/
  ends : p.stop.raised = true ∨ p.stop.isOver = true ∧ now < f + p.plan.backoff →
    ∀ more later q, machine.Trace (fun _ => True) now p more later q →
      attemptsOf i (attempts p more) = [] ∧
      (machine.Quiet later q ∨ now < later → q.tasks[i]? = some ⟨.done, none, none, .gone⟩)

section Runs

variable {plan : Plan} {proxyPlan : Proxy.Plan} {range : PortRange}
  {folders : List (Seat × Contents)} {since now f : Time} {p : Pool} {t : Task} {i : Nat}
  {done : List (Time × Action)} {log : List (Time × Nat × Attempt)}

/-- Between two attempts a task owes nothing. -/
theorem Task.Proper.debts_of_failed (h : t.Proper)
    (stands : Stands now p (some (f, .failed)) t.standing) : t.debts = [] := by
  cases h with
  | allocating | failing | pausing | paused | stopped | done | returning | gone => rfl
  | starting s =>
    have hstands : Stands now p (some (f, .failed))
      (if s.isInterrupted then .undoing else .trying) := stands
    split at hstands <;> cases hstands
  | _ => cases stands

/-- A task whose attempt has failed does not try again once the pool is to stop. -/
theorem Stands.ending (h : Stands now p (some (f, .failed)) t.standing)
    (stopping : p.stop.raised = true ∨ p.stop.isOver = true ∧ now < f + p.plan.backoff) :
    Ending now p t.standing := by
  generalize t.standing = x at h
  cases h with
  | again _ rest =>
    exact .ready (stopping.resolve_right fun h => absurd rest (Nat.not_le.mpr h.2))
  | failing =>
    exact .failing (stopping.imp_right fun ⟨halted, hlt⟩ =>
      ⟨halted, Nat.lt_add_right_iff_pos.mp hlt⟩)
  | pausing _ until_ rest =>
    exact .pausing until_ (stopping.imp_right fun ⟨halted, hlt⟩ => ⟨halted, hlt.trans_le rest⟩)
  | paused _ rest =>
    exact .paused (stopping.resolve_right fun h => absurd rest (Nat.not_le.mpr h.2))
  | stopped => exact .closing

/-- As long as the pool is not to stop, the next attempt lies ahead, and not too far. -/
theorem Stands.soon (h : Stands now p (some (f, .failed)) x) (halted : p.stop.isOver = false) :
    now ≤ f + p.plan.backoff + maxJitter p.plan.backoff ∧
      (x.Waits now → now < f + p.plan.backoff + maxJitter p.plan.backoff) := by
  cases h with
  | again _ rest soon | paused _ rest soon => exact ⟨soon, False.elim⟩
  | failing => exact ⟨(Nat.le_add_right ..).trans (Nat.le_add_right ..), False.elim⟩
  | pausing _ until_ rest soon ahead => exact ⟨ahead.trans soon, fun waits => waits.trans_le soon⟩
  | stopped _ _ stopping => cases halted.symm.trans stopping

/-- What is known of a task between two attempts. -/
theorem Recorded.between (h : Recorded log now p) (holdings : Holdings p)
    (attributed : Attributed p) (failed : (attemptsOf i log).getLast? = some (f, .failed)) :
    Between i f now p := by
  cases there : p.tasks[i]? with
  | none =>
    rw [h.absent i there] at failed
    cases failed
  | some t =>
    have hproper := holdings.proper t (List.mem_of_getElem? there)
    have hstands := h.stands i t there
    rw [failed] at hstands
    constructor
    case empty => exact attributed.emptyHanded holdings there (hproper.debts_of_failed hstands)
    case soon =>
      intro halted
      obtain ⟨hle, hlt⟩ := hstands.soon halted
      exact ⟨hle, fun quiet => hlt (hproper.waits_of_quiet quiet there)⟩
    case ends =>
      exact fun stopping more later q run => (hstands.ending stopping).of_trace holdings there run

/-- What the attempts that were made in a run from a pool on have to do with the pool after it. -/
structure Repeated (origin : Pool) (done : List (Time × Action)) (now : Time) (p : Pool) :
    Prop where
  /-- Each failed attempt is counted once, and no other one. -/
  failures : p.stats.launchFailures = (attempts origin done).countP (·.2.2 = .failed)
  /-- Each attempt that succeeds is counted once, and no other one. -/
  successes : p.stats.started = (attempts origin done).countP (·.2.2 = .succeeded)
  /-- The attempts of a task begin one after the other, each but the first one when the pause after
  a failure is over; only the last one may succeed or be interrupted. -/
  ordered : ∀ i, Ordered p.plan.backoff (attemptsOf i (attempts origin done))
  /-- Nothing is left untold: an attempt without an outcome is still being made, and a task comes to
  its end after an attempt that succeeded or was interrupted, or because the pool is to stop. -/
  stands : ∀ i t, p.tasks[i]? = some t →
    Stands now p (attemptsOf i (attempts origin done)).getLast? t.standing
  /-- What was told was told by an action of the task, and for a reason that was there before. -/
  reasons : ∀ i e x, (e, x) ∈ attemptsOf i (attempts origin done) →
    ∃ before b q t, before ++ [(e, .task i b)] <+: done ∧ machine.replay before origin = some q ∧
      q.tasks[i]? = some t ∧ t.Reason origin.site.ports.range q b x
  between : ∀ i f, (attemptsOf i (attempts origin done)).getLast? = some (f, .failed) →
    Between i f now p

theorem plan_eq_of_trace {allowed : Action → Prop}
    (run : machine.Trace allowed since (opening plan proxyPlan range folders) done now p) :
    p.plan = plan := by
  induction run with
  | refl => rfl
  | act hbefore _ hs ih =>
    exact (change_of_step (Holdings.of_trace hbefore).proper hs).plan_eq.trans ih
  | tick _ _ ih => exact ih

/-- When a search for a port fails, all of them are leased. -/
theorem inUse_of_lease_none {allowed : Action → Prop} {ports : PortAllocator}
    (run : machine.Trace allowed since (opening plan proxyPlan range folders) done now p)
    (lease : p.site.ports.lease = (none, ports)) : ∀ x ∈ range, x ∈ p.site.ports.inUse := by
  intro x hx
  have hsupply := Supply.of_trace (PortRange.ascending_of_mem hx) run
  have hrange := hsupply.allocator.range
  have hleased := PortAllocator.mem_leased_of_lease_none (hrange ▸ hsupply.allocator.cursor) lease
  exact PortSet.mem_toList.mpr (hleased x (hrange ▸ hx))

/-- Whatever is told in a run was told for a reason, at a step of that run. -/
theorem reasons_of_trace {allowed : Action → Prop} {e : Time} {x : Attempt}
    (run : machine.Trace allowed since (opening plan proxyPlan range folders) done now p)
    (told : (e, x) ∈ attemptsOf i (attempts (opening plan proxyPlan range folders) done)) :
    ∃ before b q t, before ++ [(e, .task i b)] <+: done ∧
      machine.replay before (opening plan proxyPlan range folders) = some q ∧
      q.tasks[i]? = some t ∧ t.Reason range q b x := by
  obtain ⟨before, a, q, q', hprefix, hbefore, hs, htold⟩ :=
    run.of_mem_chronicle (mem_attemptsOf.mp told)
  obtain ⟨b, t, rfl, there, hreason⟩ := reason_of_step (Holdings.of_trace hbefore).proper hs
    (fun ports lease => inUse_of_lease_none hbefore lease) htold
  exact ⟨before, b, q, t, hprefix, hbefore.replay, there, hreason⟩

/-- **Failed attempts are repeated**: in every run each task makes one attempt after the other,
until one succeeds or the pool is to stop. Each failure is counted once, and an attempt that is
interrupted is not counted. The next attempt comes after the pause of the plan, and at most a fifth
of it later; in between the task has nothing, and a signal to stop in the pause ends the task at
once. As long as the system obeys, no directory is one that could not be removed. -/
theorem failed_attempts_are_repeated
    (run : machine.Trace (fun _ => True) since (opening plan proxyPlan range folders) done now p) :
    p.plan = plan ∧ Repeated (opening plan proxyPlan range folders) done now p ∧
      ((∀ x ∈ done, x.2.Obeyed) → p.site.forgone = []) := by
  have hrecorded := Recorded.of_trace run
  refine ⟨plan_eq_of_trace run, ?_, fun obeyed => forgone_of_run (run.restrict obeyed).run⟩
  constructor
  case failures => exact hrecorded.failures
  case successes => exact hrecorded.successes
  case ordered => exact hrecorded.ordered
  case stands => exact hrecorded.stands
  case reasons => exact fun i e x told => reasons_of_trace run told
  case between =>
    exact fun i f failed =>
      hrecorded.between (Holdings.of_trace run) (Attributed.of_trace run) failed

/-- While all tasks pause and no permit is left, nothing happens of itself. -/
theorem quiet_of_pausing (runner : p.runner = .admitting) (running : p.stop.isOver = false)
    (full : p.available = 0)
    (tasks : ∀ t ∈ p.tasks, ∃ s until_, t = ⟨s, none, none, .pausing until_⟩ ∧ now < until_)
    (proxy : Proxy.machine.Quiet now p.proxy) (workers : p.site.workers = []) :
    machine.Quiet now p := by
  refine quiet_of_parts (fun a => ?_) (fun t ht a => ?_) proxy fun w hw => ?_
  · cases a <;> simp [runnerStep, runner, running, full]
  · obtain ⟨s, until_, rfl, hearly⟩ := tasks t ht
    cases a <;> simp [taskStep, proceed, hearly, running]
  · rw [workers] at hw
    cases hw

/-- A pool for one pair, with a pause of ten milliseconds. -/
def balky : Pool :=
  opening ⟨1, 1000, 10⟩ ⟨⟨8080, none, 256, .roundRobin⟩, ⟨0, 100, 1⟩, "haproxy"⟩ ⟨30000, 30002⟩ []

/-- The circuit cannot be spawned, and the task pauses for two milliseconds more than ten. -/
def stumble : List Action := [
  .proxy (.prepare none), .proxy (.write none), .proxy (.rename none), .proxy (.spawn 1 0),
  .proxy .judge, .begin, .admitPair, .task 0 .proceed, .task 0 .proceed, .task 0 .proceed,
  .task 0 .proceed, .task 0 (.startup (.prepare [])), .task 0 (.startup (.refuse (.os .notFound))),
  .task 0 (.startup .proceed), .task 0 (.startup .proceed), .task 0 (.startup .proceed),
  .task 0 (.startup .proceed), .task 0 .proceed, .task 0 (.pause 2)]

/-- The second attempt succeeds. -/
def recover : List Action := [
  .task 0 .proceed, .task 0 .proceed, .task 0 .proceed, .task 0 .proceed, .task 0 .proceed,
  .task 0 .proceed, .task 0 (.startup (.prepare [])), .task 0 (.startup (.spawn 0)),
  .task 0 (.startup .proceed), .task 0 (.startup (.prepare [])), .task 0 (.startup (.spawn 0)),
  .task 0 (.startup .proceed), .task 0 .proceed, .task 0 .proceed]

def balkyPausing : Pool := (machine.play 0 stumble balky).getD balky

def balkyLaunched : Pool := (machine.play 12 recover balkyPausing).getD balkyPausing

theorem quiet_balkyPausing {now : Time} (early : now < 12) : machine.Quiet now balkyPausing := by
  refine quiet_of_pausing rfl rfl rfl (fun t ht => ?_) (Proxy.quiet_of_resting ?_) rfl
  · exact ⟨.starting, 12, List.mem_singleton.mp ht, early⟩
  · refine ⟨.inl rfl, rfl, rfl, fun g hg => ?_, rfl, fun i process there a ha => ?_⟩
    · cases hg
    · match i with
      | 0 => cases there; exact Process.quiet_of_unasked rfl rfl rfl rfl ha
      | i + 1 => cases there

/-- The first attempt fails, and nothing is left of it in the pause; the second one begins on time,
and succeeds. -/
theorem failed_attempts_are_repeated_once :
    ∃ done, machine.Trace (fun _ => True) 0 balky done 11 balkyPausing ∧
      attempts balky done = [(0, 0, .begun), (0, 0, .failed)] ∧
      balkyPausing.stats.launchFailures = 1 ∧ EmptyHanded 0 11 balkyPausing ∧
      machine.Trace (fun _ => True) 0 balky (done ++ recover.map (12, ·)) 12 balkyLaunched ∧
      attemptsOf 0 (attempts balky (done ++ recover.map (12, ·))) =
        [(0, .begun), (0, .failed), (12, .begun), (12, .succeeded)] ∧
      balkyLaunched.stats.started = 1 ∧
      Ordered 10 [(0, .begun), (0, .failed), (12, .begun), (12, .succeeded)] := by
  have hstart : machine.Trace (fun _ => True) 0 balky [] 0 balky := .refl
  have hpause := hstart.play (fun _ _ => trivial)
    (show machine.play 0 stumble balky = some balkyPausing by rfl)
  have hpausing := hpause.wait (Nat.zero_le 11) fun _ hlt =>
    quiet_balkyPausing (hlt.trans (by decide))
  have hlaunched := (hpause.wait (Nat.zero_le 12) fun _ hlt => quiet_balkyPausing hlt).play
    (fun _ _ => trivial) (show machine.play 12 recover balkyPausing = some balkyLaunched by rfl)
  obtain ⟨-, hfirst, -⟩ := failed_attempts_are_repeated hpausing
  obtain ⟨-, hsecond, -⟩ := failed_attempts_are_repeated hlaunched
  exact ⟨_, hpausing, rfl, hfirst.failures, (hfirst.between 0 0 rfl).empty, hlaunched, rfl,
    hsecond.successes, hsecond.ordered 0⟩

end Runs

end Pool

end OnionPool
