import OnionPool.Proofs.PoolDrain

/-!
# The course of a task

Which event ends the work of a state is decided in one place, and which events a state accepts in
another. They agree: whatever comes of the leases, the launches, the pauses, the service and the
teardown, and whenever the signal to stop is raised, a task meets no event that means nothing in its
state. What it does for its pair is therefore told by few words: it goes to and fro between the
lease and the launch, and then it is stopped, or it renders its service once.

## Structure

- `Task.deeds` says what the next step of a task does for its pair, and `Move.enacts` that the step
  does that.
- `Course` are the steps of a task with all its deeds, whatever the pool is at each of them.
- `History` is what has been done when a task is in some state; `History.move` is the step.
- `Regular` is what follows from it, and `Course.of_trace` finds the course of every task in a run
  of the pool.
-/

namespace OnionPool.Pool

/-! ## What a task does for its pair -/

/-- What a task can do for its pair. -/
inductive Deed where
  | move (source : PairState) (event : PairEvent) (target : PairState)
  /-- The pair meets an event that means nothing in its state. -/
  | stick (state : PairState) (event : PairEvent)
  | register (port : Port)
  | deregister (port : Port)
  deriving DecidableEq

namespace Deed

/-- The reverse proxy after a deed. -/
def enact (proxy : Proxy) : Deed → Proxy
  | register port => proxy.register port
  | deregister port => proxy.deregister port
  | move .. | stick .. => proxy

/-- The state of the pair after a deed. -/
def lead (s : PairState) : Deed → PairState
  | move _ _ target => target
  | stick .. => .done
  | register _ | deregister _ => s

/-- Whether the pair goes to where it serves. -/
def opens : Deed → Bool
  | move _ _ .registered => true
  | _ => false

/-- Whether the pair goes to where it does not serve yet. -/
def isEarly : Deed → Bool
  | move _ _ .allocating | move _ _ .starting => true
  | _ => false

/-- What is done for a pair that comes to serve, in this order. -/
def service (port : Port) : List Deed := [
  move .starting .launched .registered, register port, move .registered .retire .retiring,
  deregister port, move .retiring .tornDown .done]

end Deed

open Deed

/-- What the next step of a task does for its pair. -/
def Task.deeds (t : Task) : List Deed :=
  match t.activity with
  | .leaving e =>
    match t.state.next? e with
    | some s => [move t.state e s]
    | none => [stick t.state e]
  | .entering =>
    match t.state with
    | .registered => t.pair.toList.map fun pair => register pair.forwarderPort
    -- The pair that is done should have been taken down before.
    | .retiring | .done => t.pair.toList.map fun pair => deregister pair.forwarderPort
    | .allocating | .starting => []
  | _ => []

section Deeds

variable {now : Time} {p q : Pool} {t t' : Task} {port : Port} {d : Deed}

/-- What a task does on its way to the next state is that move. -/
theorem deeds_of_next {s s' : PairState} {e : PairEvent} (next : s.next? e = some s')
    (leases : Option (Port × Port)) (pair : Option Pair) :
    Task.deeds ⟨s, leases, pair, .leaving e⟩ = [move s e s'] := by
  simp only [Task.deeds, next]

/-- A step of a task does its deeds, and nothing else to the reverse proxy and to the state of the
pair. -/
theorem Move.enacts (h : Move now p t t' q) :
    q.proxy = t.deeds.foldl enact p.proxy ∧ t'.state = t.deeds.foldl lead t.state := by
  cases h with
  | advance s s' leases pair e next =>
    rw [deeds_of_next next]
    exact ⟨rfl, rfl⟩
  | pause s early | resume s early | quit s early =>
    rcases early with rfl | rfl <;> exact ⟨rfl, rfl⟩
  | _ => exact ⟨rfl, rfl⟩

theorem opens_eq_false_of_isEarly (h : d.isEarly = true) : d.opens = false := by
  cases d with
  | move s e s' => cases s' <;> first | rfl | cases h
  | _ => rfl

theorem stick_notMem_service (s : PairState) (e : PairEvent) : stick s e ∉ service port := by
  simp [service]

theorem countP_opens_service (port : Port) : (service port).countP opens = 1 := rfl

end Deeds

/-! ## Courses -/

/-- The steps of a task from its admission on, with all that they have done for its pair. At each
step the time is any, and so is the pool: its ports, its processes and its signal to stop. -/
inductive Course : List Deed → Task → Prop where
  | start : Course [] {}
  | step {now : Time} {p q : Pool} {log : List Deed} {t t' : Task} {a : TaskAction} :
      Course log t → p.taskStep now t a = some (t', q) → Course (log ++ t.deeds) t'

/-- A task with a course is proper. -/
theorem Course.proper {log : List Deed} {t : Task} (h : Course log t) : t.Proper := by
  induction h with
  | start => exact .allocating
  | step _ hs ih => exact (move_of_taskStep ih hs).proper

/-- As much of the service as a task has rendered to its pair. -/
def Task.rendered (t : Task) (port : Port) : List Deed :=
  match t.state, t.activity with
  | .allocating, _ | .starting, _ => []
  | .registered, .entering => (service port).take 1
  | .registered, _ => (service port).take 2
  | .retiring, .entering => (service port).take 3
  | .retiring, _ => (service port).take 4
  | .done, _ => service port

theorem Task.rendered_of_early {t : Task} (state : t.state = .allocating ∨ t.state = .starting)
    (port : Port) : t.rendered port = [] := by
  rcases state with state | state <;> simp only [rendered, state]

/-- What a task has done of its service is a part of it. -/
theorem Task.rendered_sublist (t : Task) (port : Port) :
    (t.rendered port).Sublist (service port) := by
  unfold rendered
  split
  · exact List.nil_sublist _
  · exact List.nil_sublist _
  -- Whatever has been rendered is the beginning of the whole.
  all_goals first | exact List.take_sublist .. | exact List.Sublist.refl _

/-- What has been done for the pair of a task: nothing but early moves, and then as much of the
service as its state tells, or the move by which the pair is stopped. -/
inductive History : List Deed → Task → Prop where
  | serving (before : List Deed) (port : Port) (t : Task) (early : ∀ d ∈ before, d.isEarly = true)
      (own : ∀ pair ∈ t.pair, pair.forwarderPort = port) : History (before ++ t.rendered port) t
  | stopped (before : List Deed) (s : PairState) (t : Task)
      (early : ∀ d ∈ before, d.isEarly = true) (source : s = .allocating ∨ s = .starting)
      (done : t.state = .done) : History (before ++ [move s .shutdown .done]) t

section Histories

variable {now : Time} {p q : Pool} {t t' : Task} {log : List Deed} {port : Port} {pair : Pair}

/-- Before the pair serves, its history is made of early moves. -/
theorem History.early (h : History log t) (state : t.state = .allocating ∨ t.state = .starting) :
    ∀ d ∈ log, d.isEarly = true := by
  cases h with
  | serving before port _ early own =>
    rwa [Task.rendered_of_early state, List.append_nil]
  | stopped before s _ early source done => rcases state with state | state <;> cases done ▸ state

theorem History.of_early (early : ∀ d ∈ log, d.isEarly = true)
    (state : t.state = .allocating ∨ t.state = .starting) : History log t := by
  -- The port on which the pair will serve is the one that it has, if there is a pair.
  have hown : ∀ pair ∈ t.pair, pair.forwarderPort = (t.pair.map (·.forwarderPort)).getD 0 := by
    intro pair hpair
    rw [Option.mem_def.mp hpair]
    rfl
  have h := History.serving log _ t early hown
  rwa [Task.rendered_of_early state, List.append_nil] at h

/-- A step that does nothing for the pair, and after which as much is rendered as before. -/
theorem History.silent (h : History log t) (nothing : t.deeds = []) (state : t'.state = t.state)
    (rendered : ∀ port, t'.rendered port = t.rendered port)
    (pairs : ∀ pair ∈ t'.pair, pair ∈ t.pair) : History (log ++ t.deeds) t' := by
  rw [nothing, List.append_nil]
  cases h with
  | serving before port _ early own =>
    rw [← rendered port]
    exact .serving before port t' early fun pair hpair => own pair (pairs pair hpair)
  | stopped before s _ early source done =>
    exact .stopped before s t' early source (state.trans done)

/-- A step by which more of the service is rendered. -/
theorem History.render {deeds : List Deed} (h : History log t) (undone : t.state ≠ .done)
    (rendered : ∀ port, (∀ pair ∈ t.pair, pair.forwarderPort = port) →
      t'.rendered port = t.rendered port ++ deeds)
    (pairs : ∀ pair ∈ t'.pair, pair ∈ t.pair) : History (log ++ deeds) t' := by
  cases h with
  | serving before port _ early own =>
    rw [List.append_assoc, ← rendered port own]
    exact .serving before port t' early fun pair hpair => own pair (pairs pair hpair)
  | stopped before s _ early source done => exact absurd done undone

/-- A pair is launched, and comes to where it serves. -/
theorem History.launched (early : ∀ d ∈ log, d.isEarly = true) :
    History (log ++ [move .starting .launched .registered])
      ⟨.registered, none, some pair, .entering⟩ := by
  refine .serving log pair.forwarderPort ⟨.registered, none, some pair, .entering⟩ early ?_
  rintro _ ⟨⟩
  rfl

private theorem early_snoc {d : Deed} (early : ∀ d ∈ log, d.isEarly = true) (h : d.isEarly = true) :
    ∀ x ∈ log ++ [d], x.isEarly = true :=
  List.forall_mem_append.mpr ⟨early, List.forall_mem_singleton.mpr h⟩

/-- A pair that goes from state to state has the history of its new state. -/
theorem History.advance {s s' : PairState} {leases : Option (Port × Port)} {pair : Option Pair}
    {e : PairEvent} (h : History log ⟨s, leases, pair, .leaving e⟩) (next : s.next? e = some s')
    (proper : Task.Proper ⟨s', leases, pair, .entering⟩) :
    History (log ++ [move s e s']) ⟨s', leases, pair, .entering⟩ := by
  rcases next_cases next with ⟨rfl, rfl, rfl⟩ | ⟨source, rfl, rfl⟩ | ⟨source, rfl, rfl⟩ |
    ⟨rfl, rfl, rfl⟩ | ⟨rfl, rfl, rfl⟩ | ⟨rfl, rfl, rfl⟩
  · exact .of_early (early_snoc (h.early (.inl rfl)) rfl) (.inr rfl)
  · exact .of_early (early_snoc (h.early source) rfl) (.inl rfl)
  · exact .stopped log s _ (h.early source) source rfl
  · -- Only with its pair does a task come to where the pair serves.
    cases proper with
    | registering pair => exact .launched (h.early (.inr rfl))
  · exact h.render (fun hdone => by cases hdone) (fun port _ => rfl) fun _ hpair => hpair
  · exact h.render (fun hdone => by cases hdone) (fun port _ => rfl) fun _ hpair => hpair

/-- **Step**: a move continues the history by its deeds. -/
theorem History.move (h : History log t) (move : Move now p t t' q) :
    History (log ++ t.deeds) t' := by
  cases move with
  | advance s s' leases pair e next proper =>
    rw [deeds_of_next next]
    exact h.advance next proper
  | count pair unraised =>
    -- From here on it is known for which port the service is.
    rw [show Task.deeds ⟨.starting, none, none, .started pair⟩ = [] from rfl, List.append_nil]
    exact .of_early (h.early (.inr rfl)) (.inr rfl)
  | register pair =>
    refine h.render (fun hdone => by cases hdone) (fun port own => ?_) fun _ hpair => hpair
    cases own pair rfl
    rfl
  | deregister pair =>
    refine h.render (fun hdone => by cases hdone) (fun port own => ?_) fun _ hpair => by cases hpair
    cases own pair rfl
    rfl
  | pause s early | resume s early | quit s early =>
    rcases early with rfl | rfl <;> exact h.silent rfl rfl (fun _ => rfl) fun _ hpair => hpair
  | _ => exact h.silent rfl rfl (fun _ => rfl) fun _ hpair => hpair

/-- Whatever its course was, a task has one of these histories. -/
theorem Course.history (h : Course log t) : History log t := by
  induction h with
  | start => exact .of_early (List.forall_mem_nil _) (.inl rfl)
  | step before hs ih => exact ih.move (move_of_taskStep before.proper hs)

end Histories

/-! ## What is right about a course -/

/-- What is right about a task, and about all that it has done for its pair. -/
structure Regular (log : List Deed) (t : Task) : Prop where
  /-- An event that ends the work of a state means something in that state. -/
  accepted : ∀ e, t.activity = .leaving e → (t.state.next? e).isSome = true
  unstuck : ∀ s e, stick s e ∉ log
  leased : t.state = .starting → t.activity = .entering → t.leases.isSome = true
  paired : t.state = .registered ∨ t.state = .retiring → t.activity = .entering →
    t.pair.isSome = true
  once : log.countP opens ≤ 1
  /-- A task is over only if its pair is done. -/
  finished : t.activity = .returning ∨ t.activity = .gone → t.state = .done
  /-- When a pair is done, nothing of it is left to be taken down. -/
  tidy : t.state = .done → t.pair = none
  /-- A pair is done because it was stopped before it served, or because it has rendered its
  service, once and for one port. -/
  ends : t.state = .done → ∃ before, (∀ d ∈ before, d.isEarly = true) ∧
    ((∃ s, (s = .allocating ∨ s = .starting) ∧ log = before ++ [move s .shutdown .done]) ∨
      ∃ port, log = before ++ service port)
  /-- The deeds of a task are what its next step does. -/
  enacted : ∀ (now : Time) (p : Pool) (a : TaskAction) (t' : Task) (q : Pool),
    p.taskStep now t a = some (t', q) →
      q.proxy = t.deeds.foldl enact p.proxy ∧ t'.state = t.deeds.foldl lead t.state

section Regularity

variable {t : Task} {log : List Deed}

/-- Every event that a task carries is one that its state accepts. -/
theorem Task.Proper.accepted (h : t.Proper) {e : PairEvent} (leaving : t.activity = .leaving e) :
    (t.state.next? e).isSome = true := by
  cases h with
  | paused s early | stopped s early => cases leaving; rcases early with rfl | rfl <;> rfl
  | leased | launched | served | tornDown => cases leaving; rfl
  | _ => cases leaving

/-- What a task needs for the work of its state is there when the work begins. -/
theorem Task.Proper.equipped (h : t.Proper) (entering : t.activity = .entering) :
    (t.state = .starting → t.leases.isSome = true) ∧
      (t.state = .registered ∨ t.state = .retiring → t.pair.isSome = true) := by
  cases h with
  | launching | registering | retiring | allocating | done => simp
  | _ => cases entering

/-- A task returns only when it is done. -/
theorem Task.Proper.finished (h : t.Proper)
    (finished : t.activity = .returning ∨ t.activity = .gone) : t.state = .done := by
  cases h with
  | done | returning | gone => rfl
  | _ => rcases finished with finished | finished <;> cases finished

/-- A task that is done has no pair any more. -/
theorem Task.Proper.tidy (h : t.Proper) (done : t.state = .done) : t.pair = none := by
  cases h with
  | done | returning | gone => rfl
  | failing s early | pausing s early | paused s early | stopped s early => rfl
  | _ => cases done

/-- No task is ever stuck. -/
theorem History.unstuck (h : History log t) (s : PairState) (e : PairEvent) : stick s e ∉ log := by
  have hearly : ∀ before : List Deed, (∀ d ∈ before, d.isEarly = true) → stick s e ∉ before := by
    intro before early hmem
    cases early _ hmem
  cases h with
  | serving before port _ early own =>
    refine List.not_mem_append (hearly before early) fun hmem => ?_
    exact stick_notMem_service s e ((t.rendered_sublist port).mem hmem)
  | stopped before s' _ early source done =>
    refine List.not_mem_append (hearly before early) fun hmem => ?_
    cases List.mem_singleton.mp hmem

/-- A task serves once at most. -/
theorem History.countP_opens_le (h : History log t) : log.countP opens ≤ 1 := by
  have hearly : ∀ before : List Deed, (∀ d ∈ before, d.isEarly = true) →
      before.countP opens = 0 := by
    intro before early
    refine List.countP_eq_zero.mpr fun d hd => ?_
    simp [opens_eq_false_of_isEarly (early d hd)]
  cases h with
  | serving before port _ early own =>
    rw [List.countP_append, hearly before early, Nat.zero_add, ← countP_opens_service port]
    exact (t.rendered_sublist port).countP_le
  | stopped before s _ early source done =>
    rw [List.countP_append, hearly before early, Nat.zero_add]
    exact Nat.zero_le 1

/-- A task that is done was stopped early, or has served and retired. -/
theorem History.ends (h : History log t) (done : t.state = .done) :
    ∃ before, (∀ d ∈ before, d.isEarly = true) ∧
      ((∃ s, (s = .allocating ∨ s = .starting) ∧ log = before ++ [.move s .shutdown .done]) ∨
        ∃ port, log = before ++ service port) := by
  cases h with
  | serving before port _ early own =>
    have hall : t.rendered port = service port := by simp only [Task.rendered, done]
    exact ⟨before, early, .inr ⟨port, by rw [hall]⟩⟩
  | stopped before s _ early source done => exact ⟨before, early, .inl ⟨s, source, rfl⟩⟩

/-- Every course is regular. -/
theorem Course.regular (h : Course log t) : Regular log t where
  accepted _ := h.proper.accepted
  unstuck := h.history.unstuck
  leased state entering := (h.proper.equipped entering).1 state
  paired state entering := (h.proper.equipped entering).2 state
  once := h.history.countP_opens_le
  finished := h.proper.finished
  tidy := h.proper.tidy
  ends := h.history.ends
  enacted _ _ _ _ _ hs := (move_of_taskStep h.proper hs).enacts

end Regularity

/-! ## The courses in a pool -/

/-- What a step of the pool does for the pair of one task. -/
def deedsIn (i : Nat) (p : Pool) (a : Action) (_ : Pool) : List Deed :=
  match a with
  | .task j _ => if j = i then p.tasks[i]?.toList.flatMap Task.deeds else []
  | _ => []

/-- What has been done in a run for the pair of one task. -/
def deedsOf (i : Nat) (origin : Pool) (done : List (Time × Action)) : List Deed :=
  (machine.chronicle (deedsIn i) done origin).map (·.2)

section Runs

variable {plan : Plan} {proxyPlan : Proxy.Plan} {range : PortRange}
  {folders : List (Seat × Contents)} {allowed : Action → Prop} {since now : Time}
  {origin p q : Pool} {done : List (Time × Action)} {a : Action} {i : Nat}

/-- The deeds of the last step come last. -/
theorem deedsOf_snoc (h : machine.replay done origin = some p) (hs : p.step now a = some q) :
    deedsOf i origin (done ++ [(now, a)]) = deedsOf i origin done ++ deedsIn i p a q := by
  rw [deedsOf, Machine.chronicle_snoc (m := machine) (deedsIn i) h hs, List.map_append,
    List.map_map]
  exact congrArg _ (List.map_id _)

theorem deedsIn_of_ne (h : ∀ b, a ≠ .task i b) : deedsIn i p a q = [] := by
  cases a with
  | task j b => exact if_neg fun hji => h b (by rw [hji])
  | _ => rfl

/-- Every task of a pool has a course, and it is that of its deeds in the run. -/
theorem Course.of_trace
    (run : machine.Trace allowed since (opening plan proxyPlan range folders) done now p) :
    (p.tasks[i]? = none → deedsOf i (opening plan proxyPlan range folders) done = []) ∧
      ∀ t, p.tasks[i]? = some t →
        Course (deedsOf i (opening plan proxyPlan range folders) done) t := by
  induction run with
  | refl => exact ⟨fun _ => rfl, fun t there => by cases there⟩
  | tick _ _ ih => exact ih
  | @act done now p q a hbefore _ hs ih =>
    have hproper := (Holdings.of_trace hbefore).proper
    rw [deedsOf_snoc hbefore.replay hs]
    -- Along the run: a task waits, is admitted, or does the deed that its course goes on by.
    rcases (change_of_step hproper hs).task_cases i with ⟨hsame, hother⟩ | ⟨rfl, hnone, hnew⟩ |
      ⟨b, t, t', r, rfl, there, there', -⟩
    · -- The task stays as it is, and so do its deeds.
      rw [deedsIn_of_ne hother, List.append_nil, hsame]
      exact ih
    · rw [ih.1 hnone, hnew]
      refine ⟨fun h => (by cases h), fun u hu => ?_⟩
      cases hu
      exact .start
    · obtain ⟨u, u', r', hthere, hstep, -, rfl⟩ := taskStep_of_step hproper hs
      cases there.symm.trans hthere
      have hself := List.getElem?_set_self (a := u') (List.getElem?_eq_some_iff.mp there).1
      refine ⟨fun h => (by cases h.symm.trans hself), fun v hv => ?_⟩
      cases hself.symm.trans hv
      have hdeeds : deedsIn i p (.task i b) { r' with tasks := p.tasks.set i u' } = t.deeds := by
        simp [deedsIn, there]
      rw [hdeeds]
      exact .step (ih.2 t there) hstep

/-- No step reports a pair that is stuck. -/
theorem Change.unstuck (h : Change now p a q) (unstuck : ∀ s e, .stuck s e ∉ p.notes) :
    ∀ s e, .stuck s e ∉ q.notes := by
  have hnote : ∀ n, (∀ s e, n ≠ .stuck s e) → ∀ s e, .stuck s e ∉ n :: p.notes := by
    intro n hn s e
    exact List.not_mem_cons_of_ne_of_not_mem (hn s e).symm (unstuck s e)
  cases h with
  | task i b t t' r there move =>
    cases move with
    | leaseNone | leaseOne | startFails | retire | advance => exact hnote _ fun _ _ h => by cases h
    | _ => exact unstuck
  | _ => exact unstuck

/-- No run of a pool notes that a task is stuck. -/
theorem unstuck_of_trace
    (run : machine.Trace allowed since (opening plan proxyPlan range folders) done now p) :
    ∀ s e, .stuck s e ∉ p.notes := by
  induction run with
  | refl => exact fun _ _ => List.not_mem_nil
  | tick _ _ ih => exact ih
  | act hbefore _ hs ih => exact (change_of_step (Holdings.of_trace hbefore).proper hs).unstuck ih

/-- **Tasks keep their course**: whatever comes of its steps, and whenever the signal to stop is
raised, a task and all that it has done for its pair are regular. In every run the tasks of a pool
are on such courses, and the pool reports none that is stuck. -/
theorem tasks_keep_their_course :
    (∀ log t, Course log t → Regular log t) ∧
      ∀ (plan : Plan) (proxyPlan : Proxy.Plan) (range : PortRange)
        (folders : List (Seat × Contents)) (allowed : Action → Prop) (since now : Time)
        (done : List (Time × Action)) (p : Pool),
        machine.Trace allowed since (opening plan proxyPlan range folders) done now p →
          (∀ i t, p.tasks[i]? = some t →
            Course (deedsOf i (opening plan proxyPlan range folders) done) t) ∧
          ∀ s e, .stuck s e ∉ p.notes := by
  refine ⟨fun _ _ course => course.regular, ?_⟩
  intro plan proxyPlan range folders allowed since now done p run
  exact ⟨fun i => (Course.of_trace run).2, unstuck_of_trace run⟩

/-- All that happens while a pair comes to serve, and is retired since the pool is to stop. -/
def singleDone : List (Time × Action) := (serveAndRaise ++ drain).map (0, ·)

/-- The only pair of a pool is launched at once, serves at the second port of the range, and is
taken down. -/
theorem tasks_keep_their_course_single :
    machine.Trace (fun _ => True) 0 single singleDone 0 singleDrained ∧
      deedsOf 0 single singleDone =
        move .allocating .portsLeased .starting :: service 30001 ∧
      Regular (deedsOf 0 single singleDone) ⟨.done, none, none, .gone⟩ ∧
      ∀ s e, .stuck s e ∉ singleDrained.notes := by
  have hplay : machine.play 0 (serveAndRaise ++ drain) single = some singleDrained := by rfl
  have hrun : machine.Trace (fun _ => True) 0 single singleDone 0 singleDrained :=
    .play .refl (fun _ _ => trivial) hplay
  obtain ⟨hcourses, hunstuck⟩ := tasks_keep_their_course.2 _ _ _ _ _ _ _ _ _ hrun
  exact ⟨hrun, by rfl, tasks_keep_their_course.1 _ _ (hcourses 0 _ rfl), hunstuck⟩

end Runs

end OnionPool.Pool
