import OnionPool.Proofs.PoolHoldings
import OnionPool.Proofs.Quietness
import OnionPool.Proofs.StartupSteps

/-!
# Attempts to launch a pair

A task attempts to launch its pair until an attempt succeeds, or the pool is to stop. An attempt
begins with the lease of a port. It fails when no port is left, or when one of the programs cannot
be launched; then the task pauses, and makes another one. It is interrupted when the signal to stop
comes first.

## Structure

- `Attempt` names what can be told of an attempt, and `attempts` tells it from a run.
- `Task.standing` says how far a task has come with its attempts, and `Progress` lists what its
  moves do to that; `Move.progress` says that the list is complete.
- `Follows` is the order in which the attempts of one task follow each other, and `Stands` relates
  the last of them to the standing of the task. `Stands.progress` and `Stands.tick` keep it.
- `Recorded` is the invariant of all tasks, with the counters; `Recorded.of_trace` says that it
  holds in every run.
-/

namespace OnionPool

/-! ## Starts that are given up -/

namespace Startup

/-- Whether a start is given up since the pool is to stop. -/
def isInterrupted (s : Startup) : Bool := s.stage.cause? = some .shuttingDown

/-- A start is given up for good. It is when the signal to stop has come, or when whoever is to
prepare the program says that it is too late. -/
theorem Advance.isInterrupted_iff {now : Time} {stop : StopSignal} {s s' : Startup}
    {site site' : Site} {a : Action} (h : s.Advance now stop site a s' site') :
    s'.isInterrupted = true ↔
      s.isInterrupted = true ∨ s.Blames stop site a .shuttingDown := by
  simpa [isInterrupted] using h.cause_iff .shuttingDown

end Startup

namespace Pool

/-! ## What is told of attempts -/

/-- What can be told of an attempt to launch a pair. -/
inductive Attempt where
  | begun
  | failed
  /-- The pool is to stop, and the attempt is given up. -/
  | interrupted
  | succeeded
  deriving DecidableEq

/-- What a task tells of its attempts when it becomes another one. -/
def Task.tells (t t' : Task) : List Attempt :=
  match t.activity, t'.activity with
  | .entering, .leasing _ => [.begun]
  | .entering, .failing => [.begun, .failed]
  | .leasing _, .failing | .starting _, .failing => [.failed]
  | .starting s, .starting s' => if !s.isInterrupted && s'.isInterrupted then [.interrupted] else []
  | .started _, .discarding _ => [.interrupted]
  | .started _, .leaving .launched => [.succeeded]
  | _, _ => []

/-- What a step tells of the attempts of each task. -/
def tells (p : Pool) (a : Action) (q : Pool) : List (Nat × Attempt) :=
  match a with
  | .task i _ =>
    match p.tasks[i]?, q.tasks[i]? with
    | some t, some t' => (t.tells t').map (i, ·)
    | _, _ => []
  | _ => []

/-- All attempts that were made in a run: when, and by which task. -/
def attempts (origin : Pool) (done : List (Time × Action)) : List (Time × Nat × Attempt) :=
  machine.chronicle tells done origin

/-- The attempts of one task. -/
def attemptsOf (i : Nat) (log : List (Time × Nat × Attempt)) : List (Time × Attempt) :=
  log.filterMap fun (time, j, x) => if j = i then some (time, x) else none

/-! ## The standing of a task -/

/-- How far a task has come with its attempts. -/
inductive Standing where
  /-- An attempt is to begin. -/
  | ready
  /-- An attempt is being made. -/
  | trying
  /-- The attempt has failed. -/
  | failing
  | pausing (until_ : Time)
  /-- The pause after a failure is over. -/
  | paused
  /-- The attempt was interrupted, and is undone. -/
  | undoing
  /-- The attempt has succeeded. -/
  | serving
  /-- The task comes to its end. -/
  | closing

def Task.standing (t : Task) : Standing :=
  match t.state, t.activity with
  | .allocating, .entering => .ready
  | .starting, .starting s => if s.isInterrupted then .undoing else .trying
  | .starting, .discarding _ => .undoing
  | .starting, .leaving .launched => .serving
  | .allocating, .failing | .starting, .failing => .failing
  | .allocating, .pausing until_ | .starting, .pausing until_ => .pausing until_
  | .allocating, .leaving .launchFailed | .starting, .leaving .launchFailed => .paused
  | .allocating, .leaving .shutdown | .starting, .leaving .shutdown => .closing
  | .allocating, _ | .starting, _ => .trying
  | .registered, _ | .retiring, _ => .serving
  | .done, _ => .closing

/-- What the moves of a task in a pool do to its standing, and what they tell. -/
inductive Progress (now : Time) (p : Pool) : Standing → List Attempt → Standing → Prop where
  | stay (x : Standing) : Progress now p x [] x
  | dismiss (raised : p.stop.raised = true) : Progress now p .ready [] .closing
  | begin (unraised : p.stop.raised = false) : Progress now p .ready [.begun] .trying
  | failAtOnce (unraised : p.stop.raised = false) :
      Progress now p .ready [.begun, .failed] .failing
  | fail : Progress now p .trying [.failed] .failing
  | interrupt : Progress now p .trying [.interrupted] .undoing
  | succeed : Progress now p .trying [.succeeded] .serving
  | pause (jitter : Time) (bound : jitter ≤ maxJitter p.plan.backoff) :
      Progress now p .failing [] (.pausing (now + p.plan.backoff + jitter))
  | resume (until_ : Time) (due : until_ ≤ now) : Progress now p (.pausing until_) [] .paused
  | quit (until_ : Time) (stopping : p.stop.isOver = true) :
      Progress now p (.pausing until_) [] .closing
  | again : Progress now p .paused [] .ready
  | undone : Progress now p .undoing [] .closing
  | retired : Progress now p .serving [] .closing

section Moves

variable {now : Time} {p q : Pool} {t t' : Task}

/-- A start that goes on is given up at most once. -/
private theorem startup_cases {s s' : Startup} {a : Startup.Action} {site : Site}
    (step : s.step now p.stop p.site a = some (s', site)) :
    (s.isInterrupted = false ∧ s'.isInterrupted = true) ∨ s'.isInterrupted = s.isInterrupted := by
  have hiff := (Startup.advance_of_step step).isInterrupted_iff
  cases hbefore : s.isInterrupted with
  | true => exact .inr (hiff.mpr (.inl hbefore))
  | false =>
    cases hafter : s'.isInterrupted with
    | true => exact .inl ⟨rfl, rfl⟩
    | false => exact .inr rfl

/-- **Completeness**: every move of a task is a progress of its attempts. -/
theorem Move.progress (h : Move now p t t' q) :
    Progress now p t.standing (t.tells t') t'.standing := by
  cases h with
  | dismiss raised => exact .dismiss raised
  | leaseFirst circuit ports lease unraised => exact .begin unraised
  | leaseNone ports lease unraised => exact .failAtOnce unraised
  | leaseOne => exact .fail
  -- Within a start only an interruption is told; it is then undone before the task goes on.
  | startup s s' a site step =>
    rcases startup_cases step with ⟨hbefore, hafter⟩ | hsame
    · simpa [Task.standing, Task.tells, hbefore, hafter] using Progress.interrupt
    · simpa [Task.standing, Task.tells, hsame] using Progress.stay _
  | ready s circuit forwarder stage =>
    have hnot : s.isInterrupted = false := by
      simp [Startup.isInterrupted, Startup.Stage.cause?, stage]
    simpa [Task.standing, Task.tells, hnot] using Progress.stay _
  | interrupted s stage =>
    have hgivenUp : s.isInterrupted = true := by
      simp [Startup.isInterrupted, Startup.Stage.cause?, stage]
    simpa [Task.standing, Task.tells, hgivenUp] using Progress.undone
  | startFails s cause stage other =>
    have hnot : s.isInterrupted = false := by
      simpa [Startup.isInterrupted, Startup.Stage.cause?, stage] using other
    simpa [Task.standing, Task.tells, hnot] using Progress.fail
  | discard => exact .interrupt
  | count => exact .succeed
  | discarded => exact .undone
  | pause s early jitter bound => rcases early with rfl | rfl <;> exact .pause jitter bound
  | resume s early until_ due => rcases early with rfl | rfl <;> exact .resume until_ due
  | quit s early until_ stopping => rcases early with rfl | rfl <;> exact .quit until_ stopping
  -- From state to state, a task only begins anew or comes to the end of its attempts.
  | advance s s' leases pair e next =>
    rcases next_cases next with ⟨rfl, rfl, rfl⟩ | ⟨rfl | rfl, rfl, rfl⟩ | ⟨rfl | rfl, rfl, rfl⟩ |
      ⟨rfl, rfl, rfl⟩ | ⟨rfl, rfl, rfl⟩ | ⟨rfl, rfl, rfl⟩
    · exact .stay .trying
    · exact .again
    · exact .again
    · exact .stay .closing
    · exact .stay .closing
    · exact .stay .serving
    · exact .stay .serving
    · exact .retired
  | _ => exact .stay _

/-- Exactly the failed attempts are counted as failures, and exactly the one that succeeds as
started. -/
theorem Move.counts (h : Move now p t t' q) :
    q.stats.launchFailures = p.stats.launchFailures + (t.tells t').count .failed ∧
      q.stats.started = p.stats.started + (t.tells t').count .succeeded := by
  cases h with
  | startup s s' a site step =>
    unfold Task.tells
    dsimp only
    split <;> exact ⟨rfl, rfl⟩
  | _ => exact ⟨rfl, rfl⟩

end Moves

/-! ## The order of attempts -/

/-- What can be told next of the attempts of a task, after what was told last. Nothing is told after
an attempt that was interrupted or has succeeded. -/
inductive Follows (backoff : Time) : Option (Time × Attempt) → Time × Attempt → Prop where
  | first (b : Time) : Follows backoff none (b, .begun)
  | failed (b f : Time) (le : b ≤ f) : Follows backoff (some (b, .begun)) (f, .failed)
  | interrupted (b e : Time) (le : b ≤ e) : Follows backoff (some (b, .begun)) (e, .interrupted)
  | succeeded (b e : Time) (le : b ≤ e) : Follows backoff (some (b, .begun)) (e, .succeeded)
  /-- The next attempt begins when the pause after the failure is over. -/
  | again (f b : Time) (rest : f + backoff ≤ b) (soon : b ≤ f + backoff + maxJitter backoff) :
      Follows backoff (some (f, .failed)) (b, .begun)

/-- The attempts of a task are in order: each entry can follow the one before it. -/
inductive Ordered (backoff : Time) : List (Time × Attempt) → Prop where
  | nil : Ordered backoff []
  | snoc (log : List (Time × Attempt)) (x : Time × Attempt) (before : Ordered backoff log)
      (follows : Follows backoff log.getLast? x) : Ordered backoff (log ++ [x])

/-- How the standing of a task in a pool relates to what was told last of its attempts. -/
inductive Stands (now : Time) (p : Pool) : Option (Time × Attempt) → Standing → Prop where
  | fresh : Stands now p none .ready
  | again (f : Time) (rest : f + p.plan.backoff ≤ now)
      (soon : now ≤ f + p.plan.backoff + maxJitter p.plan.backoff) :
      Stands now p (some (f, .failed)) .ready
  | trying (b : Time) (le : b ≤ now) : Stands now p (some (b, .begun)) .trying
  | failing : Stands now p (some (now, .failed)) .failing
  | pausing (f until_ : Time) (rest : f + p.plan.backoff ≤ until_)
      (soon : until_ ≤ f + p.plan.backoff + maxJitter p.plan.backoff) (ahead : now ≤ until_) :
      Stands now p (some (f, .failed)) (.pausing until_)
  | paused (f : Time) (rest : f + p.plan.backoff ≤ now)
      (soon : now ≤ f + p.plan.backoff + maxJitter p.plan.backoff) :
      Stands now p (some (f, .failed)) .paused
  | undoing (e : Time) : Stands now p (some (e, .interrupted)) .undoing
  | serving (e : Time) : Stands now p (some (e, .succeeded)) .serving
  /-- Without an attempt, or after one that has failed, only the signal to stop ends the task. -/
  | stopped (last : Option (Time × Attempt))
      (unfinished : last = none ∨ ∃ f, last = some (f, .failed)) (halted : p.stop.isOver = true) :
      Stands now p last .closing
  | interrupted (e : Time) : Stands now p (some (e, .interrupted)) .closing
  | retired (e : Time) : Stands now p (some (e, .succeeded)) .closing

section Order

variable {now : Time} {p q : Pool} {x y : Standing} {es : List Attempt} {backoff : Time}
  {log : List (Time × Attempt)} {last : Option (Time × Attempt)}

/-- The standing of a task depends on the plan and the signal to stop only. -/
theorem Stands.mono (h : Stands now p last x) (plan : q.plan = p.plan)
    (stop : p.stop.isOver = true → q.stop.isOver = true) : Stands now q last x := by
  cases h with
  | fresh => exact .fresh
  | again f rest soon => rw [← plan] at rest soon; exact .again f rest soon
  | trying b le => exact .trying b le
  | failing => exact .failing
  | pausing f until_ rest soon ahead =>
    rw [← plan] at rest soon
    exact .pausing f until_ rest soon ahead
  | paused f rest soon => rw [← plan] at rest soon; exact .paused f rest soon
  | undoing e => exact .undoing e
  | serving e => exact .serving e
  | stopped last unfinished halted => exact .stopped last unfinished (stop halted)
  | interrupted e => exact .interrupted e
  | retired e => exact .retired e

/-- A move that tells nothing. -/
theorem Stands.silent (h : Stands now p last x) (progress : Progress now p x [] y) :
    Stands now p last y := by
  -- Nothing is told, so the last thing that was told stands, and bounds the wait after it.
  generalize hes : ([] : List Attempt) = es at progress
  cases progress with
  | stay => exact h
  | dismiss raised =>
    have hover : p.stop.isOver = true := by simp [StopSignal.isOver, raised]
    cases h with
    | fresh => exact .stopped none (.inl rfl) hover
    | again f => exact .stopped _ (.inr ⟨f, rfl⟩) hover
  | begin | failAtOnce | fail | interrupt | succeed => cases hes
  | pause jitter bound =>
    cases h with
    | failing =>
      refine .pausing now _ (Nat.le_add_right ..) (Nat.add_le_add_left bound _) ?_
      exact (Nat.le_add_right ..).trans (Nat.le_add_right ..)
  | resume until_ due =>
    cases h with
    | pausing f _ rest soon ahead =>
      exact .paused f (rest.trans due) (ahead.trans soon)
  | quit until_ stopping =>
    cases h with
    | pausing f => exact .stopped _ (.inr ⟨f, rfl⟩) stopping
  | again =>
    cases h with
    | paused f rest soon => exact .again f rest soon
  | undone =>
    cases h with
    | undoing e => exact .interrupted e
  | retired =>
    cases h with
    | serving e => exact .retired e

/-- A move that tells one thing. -/
theorem Stands.telling {e : Attempt} (h : Stands now p last x) (progress : Progress now p x [e] y) :
    Follows p.plan.backoff last (now, e) ∧ Stands now p (some (now, e)) y := by
  generalize hes : [e] = es at progress
  cases progress with
  | begin =>
    cases hes
    refine ⟨?_, .trying now (Nat.le_refl _)⟩
    cases h with
    | fresh => exact .first now
    | again f rest soon => exact .again f now rest soon
  | fail =>
    cases hes
    cases h with
    | trying b le => exact ⟨.failed b now le, .failing⟩
  | interrupt =>
    cases hes
    cases h with
    | trying b le => exact ⟨.interrupted b now le, .undoing now⟩
  | succeed =>
    cases hes
    cases h with
    | trying b le => exact ⟨.succeeded b now le, .serving now⟩
  | stay | dismiss | failAtOnce | pause | resume | quit | again | undone | retired => cases hes

/-- What a move tells follows what was told before, and the new standing fits it. -/
theorem Stands.progress (h : Stands now p log.getLast? x) (ordered : Ordered p.plan.backoff log)
    (progress : Progress now p x es y) :
    Stands now p (log ++ es.map (now, ·)).getLast? y ∧
      Ordered p.plan.backoff (log ++ es.map (now, ·)) := by
  have hone : ∀ {e : Attempt} {y : Standing}, Progress now p x [e] y →
      Stands now p (log ++ [(now, e)]).getLast? y ∧
        Ordered p.plan.backoff (log ++ [(now, e)]) := by
    intro e y hprogress
    obtain ⟨hfollows, hstands⟩ := h.telling hprogress
    exact ⟨by rwa [List.getLast?_concat], .snoc log _ ordered hfollows⟩
  cases es with
  | nil => simpa using ⟨h.silent progress, ordered⟩
  | cons e rest =>
    cases rest with
    | nil => exact hone progress
    | cons e' rest =>
      -- Two things are told at once only of an attempt that begins and fails.
      cases progress with
      | failAtOnce unraised =>
        obtain ⟨hstands, hordered⟩ := hone (.begin unraised)
        obtain ⟨hfollows, hfailing⟩ := hstands.telling .fail
        have hboth : log ++ [Attempt.begun, .failed].map (now, ·) =
            (log ++ [(now, .begun)]) ++ [(now, .failed)] := by simp
        rw [hboth]
        exact ⟨by rwa [List.getLast?_concat], .snoc _ _ hordered hfollows⟩

/-- Whether a standing stays when the clock moves on. -/
def Standing.Waits (now : Time) : Standing → Prop
  | .pausing until_ => now < until_
  | .trying | .undoing | .serving | .closing => True
  | .ready | .failing | .paused => False

/-- The clock moves on for a task that waits. -/
theorem Stands.tick (h : Stands now p last x) (waits : x.Waits now) :
    Stands (now + 1) p last x := by
  cases h with
  | fresh | again | failing | paused => exact waits.elim
  | trying b le => exact .trying b (Nat.le_succ_of_le le)
  | pausing f until_ rest soon => exact .pausing f until_ rest soon waits
  | undoing e => exact .undoing e
  | serving e => exact .serving e
  | stopped last unfinished halted => exact .stopped last unfinished halted
  | interrupted e => exact .interrupted e
  | retired e => exact .retired e

end Order

/-! ## The invariant -/

/-- What the attempts that were told in a run have to do with the pool: they are counted, and the
attempts of each task are in order and fit its standing. -/
structure Recorded (log : List (Time × Nat × Attempt)) (now : Time) (p : Pool) : Prop where
  failures : p.stats.launchFailures = log.countP (·.2.2 = .failed)
  successes : p.stats.started = log.countP (·.2.2 = .succeeded)
  ordered : ∀ i, Ordered p.plan.backoff (attemptsOf i log)
  absent : ∀ i, p.tasks[i]? = none → attemptsOf i log = []
  stands : ∀ i t, p.tasks[i]? = some t → Stands now p (attemptsOf i log).getLast? t.standing

section Invariant

variable {now : Time} {p q : Pool} {t t' : Task} {a : Action} {i j : Nat}
  {log more : List (Time × Nat × Attempt)} {es : List Attempt}

theorem attemptsOf_append : attemptsOf i (log ++ more) = attemptsOf i log ++ attemptsOf i more :=
  List.filterMap_append ..

theorem mem_attemptsOf {e : Time} {x : Attempt} :
    (e, x) ∈ attemptsOf i log ↔ (e, i, x) ∈ log := by
  unfold attemptsOf
  rw [List.mem_filterMap]
  constructor
  · rintro ⟨⟨time, j, y⟩, hmem, hy⟩
    dsimp only at hy
    split at hy
    next hji =>
      cases hy
      exact hji ▸ hmem
    next => cases hy
  · exact fun hmem => ⟨_, hmem, if_pos rfl⟩

/-- What a task tells concerns this task only. -/
theorem attemptsOf_tagged : attemptsOf i ((es.map (j, ·)).map (now, ·)) =
    if j = i then es.map (now, ·) else [] := by
  unfold attemptsOf
  rw [List.map_map, List.filterMap_map]
  split
  next hsame => simp [Function.comp_def, hsame, List.filterMap_eq_map']
  next hne => simp [Function.comp_def, hne]

/-- What is told of a step of a task is what its move tells. -/
theorem tells_task (there : p.tasks[i]? = some t) (there' : q.tasks[i]? = some t')
    (b : TaskAction) : tells p (.task i b) q = (t.tells t').map (i, ·) := by
  simp only [tells, there, there']

/-- Only the moves of a task tell of its attempts. -/
theorem attemptsOf_tells_of_ne (h : ∀ b, a ≠ .task i b) :
    attemptsOf i ((tells p a q).map (now, ·)) = [] := by
  unfold tells
  split
  next j b =>
    have hne : j ≠ i := fun hji => h b (by rw [hji])
    split
    · rw [attemptsOf_tagged, if_neg hne]
    · rfl
  next => rfl

/-- What is told is counted. -/
theorem Change.counts (h : Change now p a q) :
    q.stats.launchFailures = p.stats.launchFailures + (tells p a q).countP (·.2 = .failed) ∧
      q.stats.started = p.stats.started + (tells p a q).countP (·.2 = .succeeded) := by
  cases h with
  | task i b t t' r there move =>
    have hself := List.getElem?_set_self (a := t') (List.getElem?_eq_some_iff.mp there).1
    have hcount : ∀ e : Attempt,
        (tells p (.task i b) { r with tasks := p.tasks.set i t' }).countP (·.2 = e) =
          (t.tells t').count e := by
      intro e
      rw [tells_task there hself, List.countP_map, List.count]
      exact List.countP_congr fun x _ => by simp
    rw [hcount, hcount]
    exact move.counts
  | _ => exact ⟨rfl, rfl⟩

/-- The invariant is kept by every step. -/
theorem Recorded.step (h : Recorded log now p) (change : Change now p a q) :
    Recorded (log ++ (tells p a q).map (now, ·)) now q := by
  obtain ⟨hfailures, hsuccesses⟩ := change.counts
  have hover : p.stop.isOver = true → q.stop.isOver = true :=
    fun halted => change.isOver_iff.mpr (.inl halted)
  -- What a step is for one task, with all that is told of it.
  have htask : ∀ i, (q.tasks[i]? = p.tasks[i]? ∧
      attemptsOf i (log ++ (tells p a q).map (now, ·)) = attemptsOf i log) ∨
      (attemptsOf i (log ++ (tells p a q).map (now, ·)) = [] ∧ q.tasks[i]? = some {}) ∨
      ∃ t t' r, p.tasks[i]? = some t ∧ q.tasks[i]? = some t' ∧ Move now p t t' r ∧
        attemptsOf i (log ++ (tells p a q).map (now, ·)) =
          attemptsOf i log ++ (t.tells t').map (now, ·) := by
    intro i
    rcases change.task_cases i with ⟨hsame, hother⟩ | ⟨rfl, hnone, hnew⟩ |
      ⟨b, t, t', r, rfl, there, there', move⟩
    · exact .inl ⟨hsame, by rw [attemptsOf_append, attemptsOf_tells_of_ne hother, List.append_nil]⟩
    · refine .inr (.inl ⟨?_, hnew⟩)
      rw [attemptsOf_append, h.absent i hnone]
      rfl
    · refine .inr (.inr ⟨t, t', r, there, there', move, ?_⟩)
      rw [attemptsOf_append, tells_task there there', attemptsOf_tagged, if_pos rfl]
  constructor
  case failures =>
    rw [hfailures, h.failures, List.countP_append, List.countP_map]
    rfl
  case successes =>
    rw [hsuccesses, h.successes, List.countP_append, List.countP_map]
    rfl
  case ordered =>
    intro i
    rw [change.plan_eq]
    rcases htask i with ⟨-, hsame⟩ | ⟨hnone, -⟩ | ⟨t, t', r, there, -, move, hmore⟩
    · exact hsame ▸ h.ordered i
    · exact hnone ▸ .nil
    · exact hmore ▸ ((h.stands i t there).progress (h.ordered i) move.progress).2
  case absent =>
    intro i hnone
    rcases htask i with ⟨hsame, hlog⟩ | ⟨-, hnew⟩ | ⟨t, t', r, -, there', -⟩
    · exact hlog.trans (h.absent i (hsame ▸ hnone))
    · cases hnone.symm.trans hnew
    · cases hnone.symm.trans there'
  case stands =>
    intro i u hu
    rcases htask i with ⟨hsame, hlog⟩ | ⟨hnone, hnew⟩ | ⟨t, t', r, there, there', move, hmore⟩
    · rw [hlog]
      exact (h.stands i u (hsame ▸ hu)).mono change.plan_eq hover
    · cases hnew.symm.trans hu
      rw [hnone]
      exact .fresh
    · cases there'.symm.trans hu
      rw [hmore]
      exact ((h.stands i t there).progress (h.ordered i) move.progress).1.mono change.plan_eq hover

/-- When the pool is quiet, no task is about to go on with its attempts. -/
theorem Task.Proper.waits_of_quiet (h : t.Proper) (quiet : machine.Quiet now p)
    (there : p.tasks[i]? = some t) : t.standing.Waits now := by
  have hproceed := quiet_task quiet there .proceed
  cases h with
  -- These would go on.
  | allocating => cases hproceed
  | paused s early => cases hproceed
  | failing s early =>
    have hpause := quiet_task quiet there (.pause 0)
    simp [taskStep] at hpause
  | pausing s early until_ =>
    have hearly : now < until_ := by simpa [taskStep, proceed] using hproceed
    rcases early with rfl | rfl <;> exact hearly
  | starting s =>
    show Standing.Waits now (if s.isInterrupted then .undoing else .trying)
    split <;> trivial
  | stopped s early => rcases early with rfl | rfl <;> trivial
  | _ => trivial

/-- When the pool is quiet, all its tasks wait, and the clock moves on. -/
theorem Recorded.tick (h : Recorded log now p) (proper : ∀ t ∈ p.tasks, t.Proper)
    (quiet : machine.Quiet now p) : Recorded log (now + 1) p where
  failures := h.failures
  successes := h.successes
  ordered := h.ordered
  absent := h.absent
  stands i t there :=
    (h.stands i t there).tick ((proper t (List.mem_of_getElem? there)).waits_of_quiet quiet there)

end Invariant

/-! ## All runs -/

section Runs

variable {plan : Plan} {proxyPlan : Proxy.Plan} {range : PortRange}
  {folders : List (Seat × Contents)} {since now : Time} {p : Pool} {done : List (Time × Action)}

/-- What is told in a run is recorded of each of its tasks. -/
theorem Recorded.of_trace {allowed : Action → Prop}
    (run : machine.Trace allowed since (opening plan proxyPlan range folders) done now p) :
    Recorded (attempts (opening plan proxyPlan range folders) done) now p := by
  induction run with
  | refl =>
    constructor
    case failures => rfl
    case successes => rfl
    case ordered => exact fun i => .nil
    case absent => exact fun i _ => rfl
    case stands => exact fun i t there => by cases there
  | act hbefore _ hs ih =>
    rw [attempts, Machine.chronicle_snoc tells hbefore.replay hs]
    exact ih.step (change_of_step (Holdings.of_trace hbefore).proper hs)
  | tick hbefore quiet ih => exact ih.tick (Holdings.of_trace hbefore).proper quiet

end Runs

end Pool

end OnionPool
