import OnionPool.Proofs.CompletionSignals

/-!
# Calls for termination

Any number of callers may ask for the termination of one process, at the same time or later, also
when the program has already ended. The monitor takes at most one request. The others stay where
they are until the monitor is done, and their callers learn of that instead of an answer. As long as
the program can be killed, all of them are told that the process has ended, and none of them before
it has.

## Structure

- `Process.isCondemned` says that a program was killed, or is being killed;
  `Transition.isCondemned_iff` says which steps do that.
- `Process.Truthful` says that the outcome of a program that was not killed is its own.
- `Served` is what a state tells of the callers, and `Witnessed` what a run tells of the outcome.
- `termination_is_safe` reads off both what the callers are told and how the program ended.
-/

namespace OnionPool

/-! ## Killed, or ended by itself -/

namespace Process

/-- Whether the program was killed, or is being killed. -/
def isCondemned (p : Process) : Bool :=
  match p.phase with
  | .watching => false
  | .killing _ => true
  | .draining outcome _ | .finished outcome _ _ => outcome = .killed

/-- A program that was not killed has ended by itself, in the way that its outcome shows. -/
def Truthful (p : Process) : Prop :=
  ∀ outcome, p.reaped? = some outcome → outcome = .killed ∨ p.ended = some outcome

section Ends

variable {held : Bool} {now : Time} {p q : Process} {a : Action} {outcome : Outcome}

/-- Whoever was reaped was killed exactly if the monitor had decided to. -/
theorem isCondemned_of_reaped (reaped : p.reaped? = some outcome) :
    p.isCondemned = true ↔ outcome = .killed := by
  cases hphase : p.phase with
  | watching | killing caller => simp [reaped?, hphase] at reaped
  | draining outcome' since | finished outcome' reapedAt exitedAt =>
    simp only [reaped?, hphase, Option.some.injEq] at reaped
    simp [isCondemned, hphase, reaped]

/-- A program is killed by a monitor that still watches it, when it takes a request, or when nobody
holds the process any more. -/
theorem Transition.isCondemned_iff (h : Transition held now p a q)
    (ending : ∀ outcome, p.ended = some outcome → outcome ≠ .killed) :
    q.isCondemned = true ↔
      p.isCondemned = true ∨ (p.reaped? = none ∧ (a = .take ∨ a = .abandon)) := by
  cases h with
  | reap outcome phase ended =>
    -- A program that ends by itself does not feign a kill.
    have hself : outcome ≠ .killed := ending outcome ended
    simp [isCondemned, phase, hself]
  | collect phase | answer i phase | resist phase | deny i phase => simp [isCondemned, phase]
  | publish outcome since phase => simp [isCondemned, phase]
  | take i phase | takeFirst i j rest phase | abandon phase => simp [isCondemned, reaped?, phase]
  | _ => exact ⟨.inl, fun h => h.resolve_right (by simp)⟩

theorem Truthful.fresh : Truthful fresh := by
  intro outcome h
  cases h

/-- The outcome that is shown stays true by every step. -/
theorem Truthful.step (h : Truthful p) (t : Transition held now p a q) : Truthful q := by
  intro outcome houtcome
  cases t with
  | finish status alive =>
    cases alive.symm.trans houtcome
  | reap outcome' phase ended =>
    cases houtcome
    exact .inr ended
  | take i phase | takeFirst i j rest phase | abandon phase => cases houtcome
  | collect phase | answer i phase | resist phase | deny i phase =>
    cases houtcome
    exact .inl rfl
  | publish outcome' since phase => exact h outcome (by simpa only [reaped?, phase] using houtcome)
  | _ => exact h outcome houtcome

/-- A program ends by itself at a step of its own. -/
theorem Transition.ended_cases (h : Transition held now p a q) :
    q.ended = p.ended ∨ ∃ status, a = .finish status ∧ q.ended = some (.ofStatus status) := by
  cases h with
  | finish status => exact .inr ⟨status, rfl, rfl⟩
  | _ => exact .inl rfl

/-- Nobody has returned from a process that has not ended. -/
def Patient (p : Process) : Prop :=
  ∀ i : CallId, p.calls[i]? = some .returned → p.exited?.isSome = true

/-- A caller may return once the program has exited. -/
theorem Patient.setCall (h : Patient p) (i : CallId) {c : Call}
    (returned : c = .returned → p.exited?.isSome = true) : Patient (p.setCall i c) := by
  intro j hj
  rcases getElem?_set_eq_some hj with hc | hj
  · exact returned hc.symm
  · exact h j hj

/-- Callers are patient as long as the program does not resist. -/
theorem Patient.step (h : Patient p) (obeyed : a ≠ .resist) (t : Transition held now p a q) :
    Patient q := by
  have hkept : q.calls = p.calls → Patient q := fun hcalls i hi =>
    t.isSome_exited (h i (hcalls ▸ hi))
  cases t with
  | terminate =>
    -- The new caller has only entered.
    intro i hi
    rw [Process.terminate, List.getElem?_append] at hi
    split at hi
    · exact h i hi
    · have hmem := List.mem_singleton.mp (List.mem_of_getElem? hi)
      cases hmem
  | takeFirst i j rest phase =>
    intro k hk
    rcases getElem?_set_eq_some hk with hc | hk
    · cases hc
    · have := h k hk
      simp [exited?, phase] at this
  | answer i phase =>
    intro k hk
    rcases getElem?_set_eq_some hk with hc | hk
    · cases hc
    · have := h k hk
      simp [exited?, phase] at this
  | resist | deny => exact absurd rfl obeyed
  | lookLate i | look i | sendLate i | giveUp i => exact h.setCall i (by simp)
  | send i | queue i =>
    intro k hk
    exact h.setCall i (c := _) (by simp) k hk
  | leave i call exited => exact h.setCall i fun _ => exited
  | _ => exact hkept rfl

end Ends

end Process

namespace Supervision

/-- Whenever the monitor tries to kill the program, it succeeds. -/
def Action.Obeyed (a : Action) : Prop := ∀ error, a ≠ .resist error

/-- A program that was not reaped yet is killed, for a caller whose request is taken, or because
nobody holds the process. -/
def Kills (s : Supervision) (a : Action) (_ : Supervision) : Prop :=
  s.process.reaped? = none ∧ (a = .process .take ∨ a = .process .abandon)

/-! ## The invariants -/

/-- What a state tells of the callers, as long as every kill succeeds. -/
structure Served (s : Supervision) : Prop where
  sound : s.process.Sound
  patient : s.process.Patient
  obeyed : s.failures = []

/-- What a run tells of the outcome. -/
structure Witnessed (origin : Supervision) (done : List (Time × Action)) (s : Supervision) :
    Prop where
  killed : s.process.isCondemned = true ↔ machine.Occurred Kills origin done
  ended : ∀ outcome, s.process.ended = some outcome →
    ∃ time status, (time, Action.process (.finish status)) ∈ done ∧ outcome = .ofStatus status
  truthful : s.process.Truthful

section Invariants

variable {spec : LaunchSpec} {origin s s' : Supervision} {done : List (Time × Action)}
  {since now : Time} {a : Action}

theorem Served.start (spec : LaunchSpec) : Served { spec } where
  sound := .fresh
  patient i h := by cases h
  obeyed := rfl

/-- The invariant is kept by every step of a system that obeys. -/
theorem Served.step (h : Served s) (obeyed : a.Obeyed) (hs : s.step now a = some s') :
    Served s' := by
  cases transition_of_step hs with
  | resist error | resistCall error => exact absurd rfl (obeyed error)
  | process a process spawned owned mild step =>
    exact ⟨h.sound.step step, h.patient.step mild (Process.transition_of_step step), h.obeyed⟩
  | _ => exact ⟨h.sound, h.patient, h.obeyed⟩

/-- The invariant holds in every run on a system that obeys. -/
theorem Served.of_trace (h : machine.Trace Action.Obeyed since { spec } done now s) : Served s := by
  induction h with
  | refl => exact .start spec
  | act _ obeyed hs ih => exact ih.step obeyed hs
  | tick _ _ ih => exact ih

theorem Witnessed.start (origin : Supervision) (fresh : origin.process = .fresh) :
    Witnessed origin [] origin where
  killed := by simp [fresh, Machine.not_occurred_nil, Process.fresh, Process.isCondemned]
  ended outcome h := by
    rw [fresh] at h
    cases h
  truthful := fresh ▸ .fresh

/-- A program is condemned by a step that kills it, and one that cannot be killed was condemned
before. -/
theorem Transition.isCondemned_iff (t : Transition now s a s')
    (ending : ∀ outcome, s.process.ended = some outcome → outcome ≠ .killed) :
    s'.process.isCondemned = true ↔ s.process.isCondemned = true ∨ Kills s a s' := by
  cases t with
  | resist error process phase step | resistCall error i process phase step =>
    simp only [Process.resist, phase] at step
    cases step
    simp [Process.isCondemned, phase]
  | process a process spawned owned obeyed step =>
    simpa [Kills] using (Process.transition_of_step step).isCondemned_iff ending
  | _ => exact ⟨.inl, fun h => h.resolve_right (by simp [Kills])⟩

/-- A program that ends by itself does not feign a kill. -/
theorem Witnessed.ending (h : Witnessed origin done s) {outcome : Outcome}
    (ended : s.process.ended = some outcome) : outcome ≠ .killed := by
  obtain ⟨time, status, -, rfl⟩ := h.ended outcome ended
  exact Outcome.ofStatus_ne_killed status

/-- The invariant is kept by every step. -/
theorem Witnessed.step (h : Witnessed origin done s) (hist : machine.replay done origin = some s)
    (hs : s.step now a = some s') : Witnessed origin (done ++ [(now, a)]) s' := by
  have t := transition_of_step hs
  have hold : ∀ outcome, s.process.ended = some outcome → ∃ time status,
      (time, Action.process (.finish status)) ∈ done ++ [(now, a)] ∧
        outcome = .ofStatus status := by
    intro outcome hended
    obtain ⟨time, status, hmem, houtcome⟩ := h.ended outcome hended
    exact ⟨time, status, List.mem_append_left _ hmem, houtcome⟩
  -- The monitor decides to kill by the very steps that are counted as kills.
  have hkilled : s'.process.isCondemned = true ↔
      machine.Occurred Kills origin (done ++ [(now, a)]) := by
    rw [Machine.occurred_snoc hist hs, ← h.killed]
    exact t.isCondemned_iff fun outcome => h.ending
  have hresist : ∀ {process}, s.process.resist now = some process →
      process.ended = s.process.ended ∧ process.Truthful := by
    intro process hstep
    have tprocess : Process.Transition s.isHeld now s.process .resist process :=
      Process.transition_of_step hstep
    refine ⟨?_, h.truthful.step tprocess⟩
    exact tprocess.ended_cases.resolve_right (by simp)
  cases t with
  | resist error process phase step | resistCall error i process phase step =>
    obtain ⟨hended, htruthful⟩ := hresist step
    exact ⟨hkilled, fun outcome houtcome => hold outcome (hended ▸ houtcome), htruthful⟩
  | process a process spawned owned obeyed step =>
    have tprocess := Process.transition_of_step step
    refine ⟨hkilled, fun outcome hended => ?_, h.truthful.step tprocess⟩
    rcases tprocess.ended_cases with hsame | ⟨status, rfl, hends⟩
    · exact hold outcome (hsame ▸ hended)
    · cases hends.symm.trans hended
      exact ⟨now, status, List.mem_append_right _ (List.mem_singleton.mpr rfl), rfl⟩
  | _ => exact ⟨hkilled, hold, h.truthful⟩

/-- The invariant holds in every run. -/
theorem Witnessed.of_trace {allowed : Action → Prop}
    (h : machine.Trace allowed since { spec } done now s) : Witnessed { spec } done s := by
  induction h with
  | refl => exact .start _ rfl
  | act hbefore _ hs ih => exact ih.step hbefore.replay hs
  | tick _ _ ih => exact ih

/-- An outcome that a signal shows stays, whatever follows. -/
theorem signal_eq_of_replay {signal : Signal} {outcome : Outcome}
    (h : machine.replay done s = some s') (fired : s.process.signal? signal = some outcome) :
    s'.process.signal? signal = some outcome := by
  induction done generalizing s with
  | nil =>
    cases h
    exact fired
  | cons x rest ih =>
    obtain ⟨t, hstep, hrest⟩ := Option.bind_eq_some_iff.mp h
    exact ih hrest ((transition_of_step hstep).signal_eq fired)

/-! ## The callers -/

/-- Nobody is told anything but that the process has ended, and nobody before it has. -/
theorem Served.answer?_eq (h : Served s) {i : CallId} {answer : Except Failure Unit}
    (answered : s.answer? i = some answer) :
    answer = .ok () ∧ s.process.exited?.isSome = true := by
  unfold answer? at answered
  split at answered
  next hreturned =>
    rw [h.obeyed] at answered
    cases answered
    exact ⟨rfl, h.patient i (of_decide_eq_true hreturned)⟩
  next => cases answered

/-- When nothing more happens, every caller was told, or waits for the end of the output, which is
not awaited for longer than the drain grace. -/
theorem Served.answer?_of_quiet (h : Served s)
    (spawned : s.process ≠ .fresh → s.isSpawned = true) (quiet : machine.Quiet now s) {i : CallId}
    (asked : i < s.process.calls.length) :
    s.answer? i = some (.ok ()) ∨
      s.process.exited? = none ∧ ∃ reapedAt, s.process.reapedAt? = some reapedAt ∧
        now < reapedAt + Process.drainGrace := by
  have hcall : s.process.calls[i]? = some s.process.calls[i] := List.getElem?_eq_getElem asked
  by_cases hdone : s.process.calls[i] = .returned
  · refine .inl ?_
    have hreturned : s.process.hasReturned i = true := by
      rw [Process.hasReturned, hcall, hdone]
      rfl
    simp [answer?, hreturned, h.obeyed]
  · have htouched : s.process ≠ .fresh := by
      intro hfresh
      rw [hfresh] at asked
      cases asked
    obtain ⟨outcome, reapedAt, hphase, -, hearly⟩ := h.sound.draining_of_quiet
      (fun a ha => process_of_quiet (spawned htouched) quiet ha) hcall hdone
    exact .inr ⟨by simp only [Process.exited?, hphase], reapedAt,
      by simp only [Process.reapedAt?, hphase], hearly⟩

/-- **Termination is safe to ask for, however often.** As long as every kill succeeds, no caller is
told anything but that the process has ended, and none before it has. When nothing more happens at
an instant, every caller was told so, unless the program was reaped less than the drain grace ago
and its process has not ended yet. A program was killed exactly if the monitor killed it before it
was reaped, for a caller or because it was dropped; otherwise it shows the outcome of its own end,
and it never comes to show another one. -/
theorem termination_is_safe (h : machine.Trace Action.Obeyed since { spec } done now s) :
    (∀ i answer, s.answer? i = some answer →
      answer = .ok () ∧ s.process.exited?.isSome = true) ∧
    (machine.Quiet now s → ∀ i < s.process.calls.length, s.answer? i = some (.ok ()) ∨
      s.process.exited? = none ∧ ∃ reapedAt, s.process.reapedAt? = some reapedAt ∧
        now < reapedAt + Process.drainGrace) ∧
    (∀ outcome, s.process.reaped? = some outcome →
      (outcome = .killed ↔ machine.Occurred Kills { spec } done) ∧
      (outcome ≠ .killed → ∃ time status,
        (time, .process (.finish status)) ∈ done ∧ outcome = .ofStatus status)) ∧
    ∀ earlier later t outcome, done = earlier ++ later →
      machine.replay earlier { spec } = some t → t.process.reaped? = some outcome →
      s.process.reaped? = some outcome := by
  have hserved := Served.of_trace h
  have hwitnessed := Witnessed.of_trace h
  refine ⟨fun i answer => hserved.answer?_eq,
    fun quiet i => hserved.answer?_of_quiet (isSpawned_of_trace h) quiet,
    fun outcome hreaped => ⟨?_, fun halive => ?_⟩, ?_⟩
  · rw [← hwitnessed.killed]
    exact (Process.isCondemned_of_reaped hreaped).symm
  · exact hwitnessed.ended outcome ((hwitnessed.truthful outcome hreaped).resolve_left halive)
  · rintro earlier later t outcome rfl hearlier hreaped
    have hlater := h.replay
    rw [Machine.replay_append, hearlier] at hlater
    have hkept : s.process.signal? .reaped = some outcome := signal_eq_of_replay hlater hreaped
    exact hkept

/-- Two callers ask for termination at once, of a program that counts as started at once; the
request of the second is never taken. -/
def rivals : List Action := [
  .spawn 1, .judge, .process .terminate, .process .terminate, .process (.look 0),
  .process (.look 1), .process (.send 0), .process (.send 1), .process .take, .process .collect]

/-- A millisecond later the output ends, and both of them learn of it. -/
def reunion : List Action := [
  .process .drain, .process .publish, .process (.giveUp 1), .process (.leave 0),
  .process (.leave 1)]

def contested : Supervision :=
  (machine.play 0 rivals { spec := instantSpec }).getD { spec := instantSpec }

theorem quiet_contested : machine.Quiet 0 contested := by
  refine quiet_of_launched (.inl rfl) (fun a ha => ?_) fun x hx => by cases hx
  have hcalls : ∀ c ∈ contested.process.calls, c ≠ .entered ∧ c ≠ .sending := by decide
  exact Process.quiet_of_draining rfl rfl (by decide) hcalls ha

def reunited : Supervision := (machine.play 1 reunion contested).getD contested

theorem quiet_reunited : machine.Quiet 1 reunited :=
  quiet_of_launched (.inl rfl) (fun _ ha => Process.quiet_of_over rfl rfl ha)
    fun _ hx => by cases hx

/-- Both callers are told that the process has ended, and it was killed for one of them. -/
theorem termination_is_safe_for_rivals :
    ∃ done, machine.Trace Action.Obeyed 0 { spec := instantSpec } done 1 reunited ∧
      reunited.process.reaped? = some .killed ∧
      machine.Occurred Kills { spec := instantSpec } done ∧
      reunited.answer? 0 = some (.ok ()) ∧ reunited.answer? 1 = some (.ok ()) := by
  have hstart : machine.Trace Action.Obeyed 0 { spec := instantSpec } [] 0
      { spec := instantSpec } := .refl
  have hfirst := hstart.play (by simp [rivals, Action.Obeyed])
    (show machine.play 0 rivals { spec := instantSpec } = some contested by rfl)
  have htrace := hfirst.tick quiet_contested |>.play (by simp [reunion, Action.Obeyed])
    (show machine.play 1 reunion contested = some reunited by rfl)
  obtain ⟨-, hanswers, houtcome, -⟩ := termination_is_safe htrace
  have hended : ¬ (reunited.process.exited? = none) := by decide
  have hanswered := fun i hi => (hanswers quiet_reunited i hi).resolve_right (hended ·.1)
  exact ⟨_, htrace, rfl, (houtcome .killed rfl).1.mp rfl, hanswered 0 (by decide),
    hanswered 1 (by decide)⟩

end Invariants

end Supervision

end OnionPool
