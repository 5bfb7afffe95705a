import OnionPool.Process.Supervision
import OnionPool.Proofs.ProcessTransition
import OnionPool.Proofs.Runs

/-!
# What one step of a supervised program can be

The steps of a program under supervision: its launch, the subscribers to its signals, the kill that
fails, and what happens to its process.

## Structure

- `Process.Passage` says what a step can do to the phase of a process.
- `Supervision.Transition` lists the steps, and `Supervision.transition_of_step` says that the list
  is complete.
- `Transition.passage` and `Transition.signal_eq` tell what a step does to the process: its phase
  goes on, and a signal that has fired shows the same outcome for good.
- `isSpawned_of_trace` says that nothing happens to a process that was not spawned, and
  `process_of_quiet` passes quietness on to one that was; `quiet_of_parts` is the way back.
-/

namespace OnionPool

/-! ## Phases -/

namespace Process

/-- The phases to which a step at a time can lead from a process. -/
inductive Passage (now : Time) (p : Process) : Phase → Prop where
  | stay : Passage now p p.phase
  | kill (caller : Option CallId) (before : p.phase = .watching) : Passage now p (.killing caller)
  | reap (outcome : Outcome) (before : p.reaped? = none) : Passage now p (.draining outcome now)
  | publish (outcome : Outcome) (since : Time) (before : p.phase = .draining outcome since)
      (due : p.drainedAt.isSome = true ∨ since + drainGrace ≤ now) :
      Passage now p (.finished outcome since now)

section Passages

variable {held : Bool} {now : Time} {p q : Process} {a : Action}

theorem Transition.passage (h : Transition held now p a q) : Passage now p q.phase := by
  cases h with
  | reap outcome phase | collect phase | answer i phase | resist phase | deny i phase =>
    exact .reap _ (by simp only [reaped?, phase])
  | take i phase | takeFirst i j rest phase | abandon phase => exact .kill _ phase
  | publish outcome since phase due => exact .publish outcome since phase due
  | _ => exact .stay

/-- A signal that has fired shows the same outcome for good. -/
theorem Passage.signal_eq (h : Passage now p q.phase) {signal : Signal} {outcome : Outcome}
    (fired : p.signal? signal = some outcome) : q.signal? signal = some outcome := by
  have hreaped : p.reaped?.isSome = true := by
    cases signal with
    | reaped => exact Option.isSome_of_mem fired
    | exited => exact reaped_of_exited (Option.isSome_of_mem fired)
  generalize hphase : q.phase = phase at h
  cases h with
  | stay => cases signal <;> simpa only [signal?, reaped?, exited?, hphase] using fired
  | kill caller before => simp [reaped?, before] at hreaped
  | reap outcome' before => simp [before] at hreaped
  | publish outcome' since before =>
    cases signal with
    | reaped =>
      simp only [signal?, reaped?, before] at fired
      simpa only [signal?, reaped?, hphase] using fired
    | exited => simp [signal?, exited?, before] at fired

end Passages

end Process

namespace Supervision

/-! ## The transitions -/

/-- The steps of a supervised program at a time, by an action, to a supervised program. -/
inductive Transition (now : Time) (s : Supervision) : Action → Supervision → Prop where
  | spawn (pid : Nat) (stage : s.stage = .spawning) :
      Transition now s (.spawn pid) { s with stage := .settling (now + s.spec.settle.ticks), pid }
  | refuse (error : IoError) (stage : s.stage = .spawning) :
      Transition now s (.refuse error) { s with stage := .failed (s.spec.failure error.text) now }
  | settle (deadline : Time) (stage : s.stage = .settling deadline)
      (verdict : s.process.verdict? now deadline = some .settled) :
      Transition now s .judge { s with stage := .running }
  | endEarly (deadline : Time) (outcome : Outcome) (stage : s.stage = .settling deadline)
      (verdict : s.process.verdict? now deadline = some (.failed outcome)) :
      Transition now s .judge { s with stage := .failed (s.spec.failure outcome.text) now }
  | drop (stage : s.stage = .running) : Transition now s .drop { s with stage := .dropped }
  | subscribe (signal : Signal) (spawned : s.isSpawned = true) :
      Transition now s (.subscribe signal)
        { s with subscribers := s.subscribers ++ [⟨signal, none⟩] }
  | observe (i : Nat) (signal : Signal) (outcome : Outcome)
      (waits : s.subscribers[i]? = some ⟨signal, none⟩)
      (fired : s.process.signal? signal = some outcome) :
      Transition now s (.observe i)
        { s with subscribers := s.subscribers.set i ⟨signal, some outcome⟩ }
  /-- The program of an abandoned process cannot be killed. -/
  | resist (error : IoError) (process : Process) (phase : s.process.phase = .killing none)
      (step : s.process.resist now = some process) :
      Transition now s (.resist error) { s with process }
  /-- The program cannot be killed, and the caller learns it. -/
  | resistCall (error : IoError) (i : CallId) (process : Process)
      (phase : s.process.phase = .killing (some i)) (step : s.process.resist now = some process) :
      Transition now s (.resist error)
        { s with
          process
          failures := (i, .termination s.spec.service s.pid error.text) :: s.failures }
  | process (a : Process.Action) (process : Process) (spawned : s.isSpawned = true)
      (owned : a = .terminate → s.stage = .running) (obeyed : a ≠ .resist)
      (step : s.process.step s.isHeld now a = some process) :
      Transition now s (.process a) { s with process }

section Completeness

variable {now : Time} {s s' : Supervision}

private theorem transition_of_judge (h : s.judge now = some s') : Transition now s .judge s' := by
  unfold judge at h
  split at h
  next deadline hstage =>
    split at h
    next hverdict => cases h; exact .settle deadline hstage hverdict
    next outcome hverdict => cases h; exact .endEarly deadline outcome hstage hverdict
    next => cases h
  all_goals cases h

private theorem transition_of_observe {i : Nat} (h : s.observe i = some s') :
    Transition now s (.observe i) s' := by
  unfold observe at h
  split at h
  next signal hwaits =>
    obtain ⟨outcome, hfired, h⟩ := Option.map_eq_some_iff.mp h
    cases h
    exact .observe i signal outcome hwaits hfired
  all_goals cases h

private theorem transition_of_resist {error : IoError} (h : s.resist now error = some s') :
    Transition now s (.resist error) s' := by
  unfold resist at h
  obtain ⟨process, hstep, h⟩ := Option.map_eq_some_iff.mp h
  -- Only a process that is being killed resists, and a caller may have wanted that or not.
  cases hphase : s.process.phase with
  | killing caller =>
    cases caller with
    | none =>
      rw [hphase] at h
      cases h
      exact .resist error process hphase hstep
    | some i =>
      rw [hphase] at h
      cases h
      exact .resistCall error i process hphase hstep
  | watching | draining | finished => simp [Process.resist, hphase] at hstep

private theorem transition_of_processStep {a : Process.Action} (h : s.processStep now a = some s') :
    Transition now s (.process a) s' := by
  unfold processStep at h
  split at h
  next hguard =>
    obtain ⟨process, hstep, h⟩ := Option.map_eq_some_iff.mp h
    simp only [Bool.and_eq_true, Bool.or_eq_true, bne_iff_ne, decide_eq_true_eq] at hguard
    obtain ⟨⟨hspawned, howned⟩, hobeyed⟩ := hguard
    cases h
    exact .process a process hspawned (fun ha => howned.resolve_left (· ha)) hobeyed hstep
  next => cases h

/-- **Completeness**: every step of a supervised program is a transition. -/
theorem transition_of_step {a : Action} (h : s.step now a = some s') : Transition now s a s' := by
  cases a with
  | spawn pid =>
    simp only [step] at h
    split at h
    next hstage => cases h; exact .spawn pid hstage
    next => cases h
  | refuse error =>
    simp only [step] at h
    split at h
    next hstage => cases h; exact .refuse error hstage
    next => cases h
  | judge => exact transition_of_judge h
  | drop =>
    simp only [step] at h
    split at h
    next hstage => cases h; exact .drop hstage
    next => cases h
  | subscribe signal =>
    simp only [step, subscribe] at h
    split at h
    next hspawned => cases h; exact .subscribe signal hspawned
    next => cases h
  | observe i => exact transition_of_observe h
  | resist error => exact transition_of_resist h
  | process a => exact transition_of_processStep h

end Completeness

/-! ## What a step does to the process -/

section Steps

variable {now : Time} {s s' : Supervision} {a : Action}

theorem Transition.passage (h : Transition now s a s') :
    s.process.Passage now s'.process.phase := by
  cases h with
  | resist error process phase step | resistCall error i process phase step =>
    have t : Process.Transition s.isHeld now s.process .resist process :=
      Process.transition_of_step step
    exact t.passage
  | process a process spawned owned obeyed step => exact (Process.transition_of_step step).passage
  | _ => exact .stay

theorem Transition.signal_eq (h : Transition now s a s') {signal : Signal} {outcome : Outcome}
    (fired : s.process.signal? signal = some outcome) :
    s'.process.signal? signal = some outcome := h.passage.signal_eq fired

/-- Whether the output is read to its end by an action. -/
def Action.isDrain : Action → Bool
  | process .drain => true
  | _ => false

/-- The output is read to its end at most once, and nothing else happens then. -/
theorem Transition.drained_cases (h : Transition now s a s') :
    (a.isDrain = true ∧ s'.process.phase = s.process.phase ∧ s.process.drainedAt = none ∧
      s'.process.drainedAt = some now) ∨
      (a.isDrain = false ∧ s'.process.drainedAt = s.process.drainedAt) := by
  have hresist : ∀ {process}, s.process.resist now = some process →
      process.drainedAt = s.process.drainedAt := by
    intro process hstep
    unfold Process.resist at hstep
    split at hstep <;> cases hstep <;> rfl
  cases h with
  | resist error process phase step => exact .inr ⟨rfl, hresist step⟩
  | resistCall error i process phase step => exact .inr ⟨rfl, hresist step⟩
  | process a process spawned owned obeyed step =>
    cases Process.transition_of_step step with
    | drain notYet => exact .inl ⟨rfl, rfl, notYet, rfl⟩
    | _ => exact .inr ⟨rfl, rfl⟩
  | _ => exact .inr ⟨rfl, rfl⟩

/-! ## Programs that were spawned -/

/-- What was spawned stays spawned, also if its launch fails. -/
theorem Transition.isSpawned (h : Transition now s a s') (spawned : s.isSpawned = true) :
    s'.isSpawned = true := by
  have hreaped : s.process.reaped?.isSome = true → s'.process.reaped?.isSome = true := by
    intro hreaped
    obtain ⟨outcome, houtcome⟩ := Option.isSome_iff_exists.mp hreaped
    have hkept : s'.process.signal? .reaped = some outcome := h.signal_eq houtcome
    exact Option.isSome_of_mem hkept
  have hsame : s'.stage = s.stage → s'.isSpawned = true := by
    intro hstage
    unfold Supervision.isSpawned at spawned ⊢
    rw [hstage]
    cases hs : s.stage with
    | failed => rw [hs] at spawned; exact hreaped spawned
    | spawning => rw [hs] at spawned; exact spawned
    | settling | running | dropped => rfl
  cases h with
  | spawn pid stage | refuse error stage => simp [Supervision.isSpawned, stage] at spawned
  | settle | drop => rfl
  | endEarly deadline outcome stage verdict => exact Process.reaped_of_failed verdict
  | _ => exact hsame rfl

/-- Nothing happens to a process before it is spawned. -/
theorem Transition.fresh_of_unspawned (h : Transition now s a s')
    (fresh : s.isSpawned = false → s.process = .fresh) (unspawned : s'.isSpawned = false) :
    s'.process = .fresh := by
  have hbefore : s.isSpawned = false := by
    cases hspawned : s.isSpawned with
    | false => rfl
    | true =>
      rw [h.isSpawned hspawned] at unspawned
      cases unspawned
  cases h with
  | resist error process phase | resistCall error i process phase =>
    rw [fresh hbefore] at phase
    cases phase
  | process a process spawned =>
    rw [hbefore] at spawned
    cases spawned
  | _ => exact fresh hbefore

/-- A process to which something has happened was spawned. -/
theorem isSpawned_of_trace {allowed : Action → Prop} {spec : LaunchSpec} {since : Time}
    {done : List (Time × Action)} (h : machine.Trace allowed since { spec } done now s)
    (touched : s.process ≠ .fresh) : s.isSpawned = true := by
  have hfresh : s.isSpawned = false → s.process = .fresh := by
    clear touched
    induction h with
    | refl => exact fun _ => rfl
    | act _ _ hs ih => exact (transition_of_step hs).fresh_of_unspawned ih
    | tick _ _ ih => exact ih
  cases hspawned : s.isSpawned with
  | true => rfl
  | false => exact absurd (hfresh hspawned) touched

/-- When a supervised program that was spawned is quiet, its process is. -/
theorem process_of_quiet (spawned : s.isSpawned = true) (quiet : machine.Quiet now s)
    {a : Process.Action} (ha : a.isUrgent = true) : s.process.step s.isHeld now a = none := by
  have hstep : ∀ a : Process.Action, a.isUrgent = true → a ≠ .resist →
      s.process.step s.isHeld now a = none := by
    intro a ha hresist
    have hasked : (a != .terminate) = true := by
      cases a with
      | terminate => cases ha
      | _ => rfl
    have hstep : s.processStep now a = none := quiet (.process a) ha
    simpa [processStep, spawned, hasked, hresist] using hstep
  by_cases hresist : a = .resist
  -- A program that could resist would be collected.
  · rw [hresist]
    exact Process.resist_eq_none (hstep .collect rfl (by decide))
  · exact hstep a ha hresist

/-- A supervised program is quiet when there is no verdict to be found on its launch, its process is
quiet, and no subscriber has still to observe anything. -/
theorem quiet_of_parts (spawned : s.stage ≠ .spawning) (judged : s.judge now = none)
    (process : ∀ a, a.isUrgent = true → s.process.step s.isHeld now a = none)
    (subscribers : ∀ x ∈ s.subscribers, x.observed = none → s.process.signal? x.signal = none) :
    machine.Quiet now s := by
  intro a ha
  cases hs : machine.step now s a with
  | none => rfl
  | some s' =>
    have hstep : s.step now a = some s' := hs
    -- Every urgent step is one of the launch, the process or a subscriber.
    cases transition_of_step hs with
    | spawn _ stage | refuse _ stage => exact absurd stage spawned
    | settle | endEarly =>
      cases judged.symm.trans hstep
    | drop | subscribe => cases ha
    | observe i signal outcome waits fired =>
      have hnone := subscribers _ (List.mem_of_getElem? waits) rfl
      rw [hnone] at fired
      cases fired
    | resist error _ phase step | resistCall error i _ phase step =>
      cases (process .resist rfl).symm.trans step
    | process a process' spawned owned obeyed step =>
      rw [process a ha] at step
      cases step

/-- A supervised program that was launched is quiet when its process is, and no subscriber has still
to observe anything. -/
theorem quiet_of_launched (launched : s.stage = .running ∨ s.stage = .dropped)
    (process : ∀ a, a.isUrgent = true → s.process.step s.isHeld now a = none)
    (subscribers : ∀ x ∈ s.subscribers, x.observed = none → s.process.signal? x.signal = none) :
    machine.Quiet now s := by
  refine quiet_of_parts ?_ ?_ process subscribers
  · rcases launched with hstage | hstage <;> simp [hstage]
  · rcases launched with hstage | hstage <;> simp [judge, hstage]

end Steps

end Supervision

end OnionPool
