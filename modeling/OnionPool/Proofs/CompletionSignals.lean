import OnionPool.Proofs.Quietness
import OnionPool.Proofs.SupervisionStep

/-!
# When the signals of a process fire

A process has two signals. One tells that its program was reaped, the other that it is done with.
Each of them fires once, both show the same outcome, and whoever subscribes to one of them observes
that outcome, no matter when. The second signal follows the first one when the output has ended, or
when the drain grace is over, whatever is earlier; so a program that keeps the output open cannot
hold it up for longer.

## Structure

- `changes` lists when a signal has changed in a run, `drainedAt?` says when the output was read to
  its end, and `due` when the second signal is to follow.
- `Recorded` relates the phase of the monitor to these times; steps and ticks keep it.
- `Signalled` is the invariant of whole runs, with the subscribers.
- `signals_fire_once` reads this off.
-/

namespace OnionPool.Supervision

/-! ## Times that are told from a run -/

/-- The times at which a signal has changed. -/
def changes (signal : Signal) (origin : Supervision) (done : List (Time × Action)) : List Time :=
  machine.moments (fun s s' => s.process.signal? signal ≠ s'.process.signal? signal) done origin

/-- When the output was read to its end. -/
def drainedAt? (done : List (Time × Action)) : Option Time :=
  (done.find? (·.2.isDrain)).map (·.1)

/-- When the process of a program that was reaped is to be done with: at the end of its output, but
not before the reap, or when the drain grace is over. -/
def due (reapedAt : Time) (drainedAt : Option Time) : Time :=
  match drainedAt with
  | none => reapedAt + Process.drainGrace
  | some time => min (max reapedAt time) (reapedAt + Process.drainGrace)

/-- The exit is never due before the reap. -/
theorem le_due (reapedAt : Time) (drainedAt : Option Time) : reapedAt ≤ due reapedAt drainedAt := by
  cases drainedAt with
  | none => exact Nat.le_add_right ..
  | some time => exact le_min (le_max_left ..) (Nat.le_add_right ..)

/-- What the phase of the monitor says of the times at which both signals have changed. -/
inductive Recorded (now : Time) (drainedAt : Option Time) :
    Phase → List Time → List Time → Prop where
  | watching : Recorded now drainedAt .watching [] []
  | killing (caller : Option CallId) : Recorded now drainedAt (.killing caller) [] []
  | draining (outcome : Outcome) (reapedAt : Time) (past : reapedAt ≤ now)
      (inTime : now ≤ due reapedAt drainedAt) :
      Recorded now drainedAt (.draining outcome reapedAt) [reapedAt] []
  | finished (outcome : Outcome) (reapedAt exitedAt : Time) (past : exitedAt ≤ now)
      (exact_ : exitedAt = due reapedAt drainedAt) :
      Recorded now drainedAt (.finished outcome reapedAt exitedAt) [reapedAt] [exitedAt]

section Records

variable {now : Time} {p q : Process} {phase : Phase} {reaps exits : List Time}

/-- The output ends, in time for a process that is not done with, and too late for one that is. -/
theorem Recorded.drain (h : Recorded now none phase reaps exits) :
    Recorded now (some now) phase reaps exits := by
  cases h with
  | watching => exact .watching
  | killing caller => exact .killing caller
  | draining outcome reapedAt past inTime =>
    exact .draining outcome reapedAt past (le_min (le_max_right ..) inTime)
  | finished outcome reapedAt exitedAt past exact_ =>
    refine .finished outcome reapedAt exitedAt past ?_
    have hlate : reapedAt + Process.drainGrace ≤ max reapedAt now :=
      (exact_ ▸ past).trans (le_max_right ..)
    rw [exact_]
    exact (min_eq_right hlate).symm

/-- No signal of a program that was not reaped has fired. -/
theorem Recorded.alive (h : Recorded now p.drainedAt p.phase reaps exits)
    (alive : p.reaped? = none) : reaps = [] ∧ exits = [] := by
  generalize hphase : p.phase = phase at h
  cases h with
  | watching | killing caller => exact ⟨rfl, rfl⟩
  | draining outcome reapedAt | finished outcome reapedAt exitedAt =>
    simp [Process.reaped?, hphase] at alive

/-- The signals that the monitor fires are recorded. -/
theorem Recorded.passage (h : Recorded now p.drainedAt p.phase reaps exits)
    (past : ∀ time, p.drainedAt = some time → time ≤ now)
    (passage : p.Passage now q.phase) :
    Recorded now p.drainedAt q.phase
      (reaps ++ if p.signal? .reaped ≠ q.signal? .reaped then [now] else [])
      (exits ++ if p.signal? .exited ≠ q.signal? .exited then [now] else []) := by
  generalize hphase : q.phase = phase' at passage
  cases passage with
  -- The signals are functions of the phase, so that only the step out of it can fire one.
  | stay =>
    have hsame : ∀ signal, p.signal? signal = q.signal? signal := by
      intro signal
      cases signal <;> simp only [Process.signal?, Process.reaped?, Process.exited?, hphase]
    simpa [hsame] using h
  | kill caller before =>
    obtain ⟨rfl, rfl⟩ := h.alive (by simp only [Process.reaped?, before])
    simpa [Process.signal?, Process.reaped?, Process.exited?, before, hphase] using .killing caller
  | reap outcome before =>
    obtain ⟨rfl, rfl⟩ := h.alive before
    have hexited : p.exited? = none := by
      cases hexited : p.exited? with
      | none => rfl
      | some outcome =>
        have hreaped := Process.reaped_of_exited (Option.isSome_of_mem hexited)
        simp [before] at hreaped
    have hbefore : p.signal? .reaped = none ∧ p.signal? .exited = none := ⟨before, hexited⟩
    have hafter : q.signal? .reaped = some outcome ∧ q.signal? .exited = none := by
      simp [Process.signal?, Process.reaped?, Process.exited?, hphase]
    simpa [hbefore, hafter] using .draining outcome now (Nat.le_refl _) (le_due now p.drainedAt)
  | publish outcome since before hdue =>
    rw [before] at h
    cases h with
    | draining _ _ le inTime =>
      -- Publishing waits for the later of the two moments, and the record says that it is not over.
      have hnow : now = due since p.drainedAt := by
        refine Nat.le_antisymm inTime ?_
        cases hdrained : p.drainedAt with
        | none =>
          rw [hdrained] at hdue
          exact hdue.resolve_left (by decide)
        | some time => exact (min_le_left ..).trans (max_le le (past time hdrained))
      simpa [Process.signal?, Process.reaped?, Process.exited?, before, hphase] using
        .finished outcome since now (Nat.le_refl _) hnow

/-- A process that is reaped but not done with is not due when the clock moves on. -/
theorem Recorded.tick (h : Recorded now p.drainedAt p.phase reaps exits)
    (quiet : p.reaped?.isSome = true → p.publish now = none) :
    Recorded (now + 1) p.drainedAt p.phase reaps exits := by
  generalize hphase : p.phase = phase at h
  cases h with
  | watching => exact .watching
  | killing caller => exact .killing caller
  | draining outcome reapedAt past inTime =>
    refine .draining outcome reapedAt (Nat.le_succ_of_le past) ?_
    have hpublish := quiet (by simp [Process.reaped?, hphase])
    simp only [Process.publish, hphase] at hpublish
    split at hpublish
    next => cases hpublish
    next hnot =>
      simp only [Bool.or_eq_true, not_or, Option.not_isSome_iff_eq_none, decide_eq_true_eq,
        Nat.not_le] at hnot
      rw [hnot.1]
      exact hnot.2
  | finished outcome reapedAt exitedAt past exact_ =>
    exact .finished outcome reapedAt exitedAt (Nat.le_succ_of_le past) exact_

end Records

/-! ## The invariant -/

/-- What a run tells of the signals and their subscribers. -/
structure Signalled (origin : Supervision) (done : List (Time × Action)) (now : Time)
    (s : Supervision) : Prop where
  drained : drainedAt? done = s.process.drainedAt
  past : ∀ time, s.process.drainedAt = some time → time ≤ now
  recorded : Recorded now s.process.drainedAt s.process.phase (changes .reaped origin done)
    (changes .exited origin done)
  observed : ∀ x ∈ s.subscribers, ∀ outcome, x.observed = some outcome →
    s.process.signal? x.signal = some outcome

section Invariant

variable {spec : LaunchSpec} {origin s s' : Supervision} {done : List (Time × Action)}
  {since now : Time} {a : Action}

theorem Signalled.start (spec : LaunchSpec) (since : Time) :
    Signalled { spec } [] since { spec } where
  drained := rfl
  past time h := by cases h
  recorded := .watching
  observed x hx := by cases hx

/-- What was observed stays true, and only what a signal shows is observed. -/
theorem Transition.observed_of_step (t : Transition now s a s')
    (observed : ∀ x ∈ s.subscribers, ∀ outcome, x.observed = some outcome →
      s.process.signal? x.signal = some outcome) :
    ∀ x ∈ s'.subscribers, ∀ outcome, x.observed = some outcome →
      s'.process.signal? x.signal = some outcome := by
  intro x hx outcome hobserved
  have hold : x ∈ s.subscribers → s'.process.signal? x.signal = some outcome :=
    fun hx => t.signal_eq (observed x hx outcome hobserved)
  cases t with
  | subscribe signal spawned =>
    rcases List.mem_append.mp hx with hx | hx
    · exact hold hx
    · rw [List.mem_singleton.mp hx] at hobserved
      cases hobserved
  | observe i signal outcome' waits fired =>
    rcases List.mem_or_eq_of_mem_set hx with hx | rfl
    · exact hold hx
    · cases hobserved
      exact fired
  | _ => exact hold hx

theorem drainedAt?_snoc (done : List (Time × Action)) (now : Time) (a : Action) :
    drainedAt? (done ++ [(now, a)]) =
      (drainedAt? done).or (if a.isDrain = true then some now else none) := by
  unfold drainedAt?
  rw [List.find?_append]
  cases done.find? (·.2.isDrain) with
  | some x => rfl
  | none => cases hdrain : a.isDrain <;> simp [hdrain]

/-- The invariant is kept by every step. -/
theorem Signalled.step (h : Signalled origin done now s)
    (hist : machine.replay done origin = some s) (hs : s.step now a = some s') :
    Signalled origin (done ++ [(now, a)]) now s' := by
  have t := transition_of_step hs
  have hchanges : ∀ signal, changes signal origin (done ++ [(now, a)]) =
      changes signal origin done ++
        if s.process.signal? signal ≠ s'.process.signal? signal then [now] else [] := by
    intro signal
    unfold changes
    rw [Machine.moments_snoc _ hist hs]
    simp only [decide_eq_true_eq]
  have hrecorded := h.recorded.passage h.past t.passage
  rw [← hchanges, ← hchanges] at hrecorded
  have hobserved := t.observed_of_step h.observed
  -- The end of the output is no signal, but it moves the moment at which the exit is due.
  rcases t.drained_cases with ⟨hdrain, hphase, hbefore, hafter⟩ | ⟨hother, hsame⟩
  · constructor
    case drained => rw [drainedAt?_snoc, h.drained, hbefore, hafter, hdrain]; rfl
    case past =>
      intro time htime
      rw [hafter] at htime
      cases htime
      exact Nat.le_refl _
    case recorded =>
      rw [hbefore] at hrecorded
      rw [hafter]
      exact hrecorded.drain
    case observed => exact hobserved
  · constructor
    case drained => rw [drainedAt?_snoc, h.drained, hother, hsame]; simp
    case past => rw [hsame]; exact h.past
    case recorded => rw [hsame]; exact hrecorded
    case observed => exact hobserved

/-- The invariant is kept when the clock moves on. -/
theorem Signalled.tick (h : Signalled origin done now s)
    (spawned : s.process ≠ .fresh → s.isSpawned = true) (quiet : machine.Quiet now s) :
    Signalled origin done (now + 1) s where
  drained := h.drained
  past time htime := Nat.le_succ_of_le (h.past time htime)
  recorded := by
    refine h.recorded.tick fun hreaped => ?_
    have htouched : s.process ≠ .fresh := by
      intro hfresh
      rw [hfresh] at hreaped
      cases hreaped
    exact process_of_quiet (a := .publish) (spawned htouched) quiet rfl
  observed := h.observed

/-- The invariant holds in every run of a program. -/
theorem Signalled.of_trace (h : machine.Trace (fun _ => True) since { spec } done now s) :
    Signalled { spec } done now s := by
  induction h with
  | refl => exact .start spec since
  | act hbefore _ hs ih => exact ih.step hbefore.replay hs
  | tick hbefore quiet ih => exact ih.tick (isSpawned_of_trace hbefore) quiet

/-- Whoever waits for a signal that has fired does not wait when nothing more happens. -/
theorem observed_of_quiet (quiet : machine.Quiet now s) (h : Signalled origin done now s)
    {x : Subscriber} (hx : x ∈ s.subscribers) : x.observed = s.process.signal? x.signal := by
  cases hobserved : x.observed with
  | some outcome => exact (h.observed x hx outcome hobserved).symm
  | none =>
    obtain ⟨i, hi⟩ := List.mem_iff_getElem?.mp hx
    have hwaits : s.subscribers[i]? = some ⟨x.signal, none⟩ := by
      rw [hi]
      exact congrArg (fun o => some (Subscriber.mk x.signal o)) hobserved
    have hobserve : s.observe i = none := quiet (.observe i) rfl
    unfold observe at hobserve
    rw [hwaits] at hobserve
    exact (Option.map_eq_none_iff.mp hobserve).symm

/-- **Each signal fires once, and both agree.** Either no signal has fired, and no signal has ever
changed; or the program was reaped, and the signal of that has changed once. Then the second signal
has not changed, and is not overdue, or it has changed once, at the moment when it was due, and
shows the same outcome. What a subscriber has observed is what its signal shows; when nothing more
happens at an instant, all subscribers whose signal has fired have observed it. -/
theorem signals_fire_once (h : machine.Trace (fun _ => True) since { spec } done now s) :
    ((s.process.reaped? = none ∧ changes .reaped { spec } done = [] ∧
        s.process.exited? = none ∧ changes .exited { spec } done = []) ∨
      ∃ outcome reapedAt, s.process.reaped? = some outcome ∧
        changes .reaped { spec } done = [reapedAt] ∧
        ((s.process.exited? = none ∧ changes .exited { spec } done = [] ∧
            (machine.Quiet now s → now < due reapedAt (drainedAt? done))) ∨
          (s.process.exited? = some outcome ∧
            changes .exited { spec } done = [due reapedAt (drainedAt? done)]))) ∧
      ∀ x ∈ s.subscribers,
        (∀ outcome, x.observed = some outcome → s.process.signal? x.signal = some outcome) ∧
        (machine.Quiet now s → x.observed = s.process.signal? x.signal) := by
  have hs := Signalled.of_trace h
  refine ⟨?_, fun x hx => ⟨hs.observed x hx, fun quiet => observed_of_quiet quiet hs hx⟩⟩
  have hrecorded := hs.recorded
  have hnext : machine.Quiet now s → Recorded (now + 1) s.process.drainedAt s.process.phase
      (changes .reaped { spec } done) (changes .exited { spec } done) :=
    fun quiet => (hs.tick (isSpawned_of_trace h) quiet).recorded
  rw [hs.drained]
  unfold Process.reaped? Process.exited?
  generalize changes .reaped { spec } done = reaps at *
  generalize changes .exited { spec } done = exits at *
  generalize s.process.phase = phase at *
  cases hrecorded with
  | watching | killing caller => exact .inl ⟨rfl, rfl, rfl, rfl⟩
  | draining outcome reapedAt past inTime =>
    refine .inr ⟨outcome, reapedAt, rfl, rfl, .inl ⟨rfl, rfl, fun quiet => ?_⟩⟩
    cases hnext quiet with
    | draining _ _ _ inTime => exact inTime
  | finished outcome reapedAt exitedAt past exact_ =>
    exact .inr ⟨outcome, reapedAt, rfl, rfl, .inr ⟨rfl, by rw [exact_]⟩⟩

/-- A program that counts as started at once. -/
def instantSpec : LaunchSpec :=
  { service := "tor", port := 9050, program := "tor", settle := .ofMillis 0 }

/-- It ends by itself while its output is open; one subscriber has come before. -/
def ending : List Action := [
  .spawn 1, .judge, .subscribe .reaped, .process (.finish (some (.code 4))), .process .reap,
  .observe 0]

def lingering : Supervision :=
  (machine.play 0 ending { spec := instantSpec }).getD { spec := instantSpec }

/-- A millisecond later the output ends, and then another subscriber comes. -/
def closing : List Action := [.process .drain, .process .publish, .subscribe .exited, .observe 1]

theorem quiet_lingering : machine.Quiet 0 lingering := by
  refine quiet_of_launched (.inl rfl) (fun a ha => ?_) fun x hx hwaits => ?_
  · have hcalls : lingering.process.calls = [] := by rfl
    exact Process.quiet_of_draining rfl rfl (by decide) (by simp [hcalls]) ha
  · have hobserved : ∀ x ∈ lingering.subscribers, x.observed ≠ none := by decide
    exact absurd hwaits (hobserved x hx)

/-- Both signals of the program fire, the second one a millisecond after the first, when the output
ends; and each subscriber has observed how the program ended. -/
theorem signals_fire_once_after_output :
    ∃ done s, machine.Trace (fun _ => True) 0 { spec := instantSpec } done 1 s ∧
      drainedAt? done = some 1 ∧ s.process.exited? = some (.exited (.code 4)) ∧
      changes .reaped { spec := instantSpec } done = [0] ∧
      changes .exited { spec := instantSpec } done = [1] ∧
      s.subscribers.map (·.observed) = [some (.exited (.code 4)), some (.exited (.code 4))] := by
  obtain ⟨s, hclosing⟩ : ∃ s, machine.play 1 closing lingering = some s := ⟨_, rfl⟩
  have hstart : machine.Trace (fun _ => True) 0 { spec := instantSpec } [] 0
      { spec := instantSpec } := .refl
  have hfirst := hstart.play (fun _ _ => trivial)
    (show machine.play 0 ending { spec := instantSpec } = some lingering by rfl)
  have htrace := hfirst.tick quiet_lingering |>.play (fun _ _ => trivial) hclosing
  refine ⟨_, s, htrace, rfl, ?_⟩
  obtain ⟨hsignals, -⟩ := signals_fire_once htrace
  have hreaped : changes .reaped { spec := instantSpec }
      ([] ++ ending.map (0, ·) ++ closing.map (1, ·)) = [0] := by rfl
  cases hclosing
  rcases hsignals with ⟨hnone, -⟩ | ⟨outcome, reapedAt, houtcome, honce, hrest⟩
  · cases hnone
  · cases honce.symm.trans hreaped
    cases houtcome
    rcases hrest with ⟨hnone, -⟩ | ⟨hexited, htwice⟩
    · cases hnone
    · exact ⟨hexited, hreaped, htwice, rfl⟩

end Invariant

end OnionPool.Supervision
