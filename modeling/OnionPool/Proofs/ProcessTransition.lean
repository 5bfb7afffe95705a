import OnionPool.Process.Basic

/-!
# What one step of a process can be

The steps of a supervised process, of its monitor and of the callers that ask for its termination,
each with its guard and the process after it; and what is true of a process at any moment, whatever
has happened to it.

## Structure

- `Transition` lists the steps, and `transition_of_step` says that the list is complete.
- `Sound` is the invariant that relates the callers to the phase of the monitor.
- `reaped_of_quiet`: when nothing more can happen, a process that nobody holds, or whose termination
  was asked for, is reaped.
- `Unharmed` says that a process was not killed; `Unharmed.step` that it is not, as long as somebody
  holds it and nobody asks for its termination.
-/

namespace OnionPool.Process

/-! ## The transitions -/

/-- The steps of a process at a time, by an action, to a process; `held` says whether somebody holds
it. -/
inductive Transition (held : Bool) (now : Time) (p : Process) : Action → Process → Prop where
  | terminate : Transition held now p .terminate p.terminate
  | finish (status : Option ExitStatus) (alive : p.reaped? = none) (notYet : p.ended = none) :
      Transition held now p (.finish status) { p with ended := some (.ofStatus status) }
  | drain (notYet : p.drainedAt = none) :
      Transition held now p .drain { p with drainedAt := some now }
  | reap (outcome : Outcome) (phase : p.phase = .watching) (ended : p.ended = some outcome) :
      Transition held now p .reap { p with phase := .draining outcome now }
  /-- The last request is taken. -/
  | take (i : CallId) (phase : p.phase = .watching) (slot : p.slot = some i)
      (queue : p.queue = []) :
      Transition held now p .take { p with phase := .killing (some i), slot := none }
  /-- A request is taken, and the next one comes to its place. -/
  | takeFirst (i j : CallId) (rest : List CallId) (phase : p.phase = .watching)
      (slot : p.slot = some i) (queue : p.queue = j :: rest) :
      Transition held now p .take
        { p with
          phase := .killing (some i)
          slot := some j
          queue := rest
          calls := p.calls.set j .requested }
  | abandon (phase : p.phase = .watching) (unheld : held = false) (idle : p.isIdle = true)
      (slot : p.slot = none) : Transition held now p .abandon { p with phase := .killing none }
  | collect (phase : p.phase = .killing none) :
      Transition held now p .collect { p with phase := .draining .killed now }
  /-- The caller whose request was taken gets its answer. -/
  | answer (i : CallId) (phase : p.phase = .killing (some i)) :
      Transition held now p .collect { p.setCall i .waiting with phase := .draining .killed now }
  | resist (phase : p.phase = .killing none) :
      Transition held now p .resist { p with phase := .draining .killed now }
  /-- The caller learns that the program could not be killed, and waits for nothing more. -/
  | deny (i : CallId) (phase : p.phase = .killing (some i)) :
      Transition held now p .resist { p.setCall i .returned with phase := .draining .killed now }
  | publish (outcome : Outcome) (since : Time) (phase : p.phase = .draining outcome since)
      (due : p.drainedAt.isSome = true ∨ since + drainGrace ≤ now) :
      Transition held now p .publish { p with phase := .finished outcome since now }
  /-- The caller comes too late to ask for anything. -/
  | lookLate (i : CallId) (call : p.calls[i]? = some .entered) (reaped : p.reaped?.isSome = true) :
      Transition held now p (.look i) (p.setCall i .waiting)
  | look (i : CallId) (call : p.calls[i]? = some .entered) (alive : p.reaped? = none) :
      Transition held now p (.look i) (p.setCall i .sending)
  /-- The monitor takes no requests any more. -/
  | sendLate (i : CallId) (call : p.calls[i]? = some .sending)
      (exited : p.exited?.isSome = true) : Transition held now p (.send i) (p.setCall i .waiting)
  | send (i : CallId) (call : p.calls[i]? = some .sending) (open_ : p.exited? = none)
      (slot : p.slot = none) :
      Transition held now p (.send i) { p.setCall i .requested with slot := some i }
  /-- The place is taken, and the caller stands in line. -/
  | queue (i j : CallId) (call : p.calls[i]? = some .sending) (open_ : p.exited? = none)
      (slot : p.slot = some j) :
      Transition held now p (.send i) { p.setCall i .queued with queue := p.queue ++ [i] }
  | giveUp (i : CallId) (call : p.calls[i]? = some .requested ∨ p.calls[i]? = some .queued)
      (exited : p.exited?.isSome = true) : Transition held now p (.giveUp i) (p.setCall i .waiting)
  | leave (i : CallId) (call : p.calls[i]? = some .waiting) (exited : p.exited?.isSome = true) :
      Transition held now p (.leave i) (p.setCall i .returned)

section Completeness

variable {held : Bool} {now : Time} {p q : Process}

private theorem transition_of_finish {status : Option ExitStatus} (h : p.finish status = some q) :
    Transition held now p (.finish status) q := by
  unfold finish at h
  split at h
  next hphase =>
    split at h
    next hnot => cases h; exact .finish status (by simp only [reaped?, hphase]) hnot
    next => cases h
  next caller hphase =>
    split at h
    next hnot => cases h; exact .finish status (by simp only [reaped?, hphase]) hnot
    next => cases h
  all_goals cases h

private theorem transition_of_take (h : p.take = some q) : Transition held now p .take q := by
  unfold take at h
  split at h
  next i hphase hslot =>
    split at h
    next hqueue => cases h; exact .take i hphase hslot hqueue
    next j rest hqueue => cases h; exact .takeFirst i j rest hphase hslot hqueue
  next => cases h

private theorem transition_of_abandon (h : p.abandon held = some q) :
    Transition held now p .abandon q := by
  unfold abandon at h
  split at h
  next hphase =>
    split at h
    next hguard =>
      simp only [Bool.and_eq_true, Bool.not_eq_true', Option.isNone_iff_eq_none] at hguard
      cases h
      exact .abandon hphase hguard.1.1 hguard.1.2 hguard.2
    next => cases h
  all_goals cases h

private theorem transition_of_publish (h : p.publish now = some q) :
    Transition held now p .publish q := by
  unfold publish at h
  split at h
  next outcome since hphase =>
    split at h
    next hdue =>
      cases h
      exact .publish outcome since hphase (by simpa using hdue)
    next => cases h
  all_goals cases h

private theorem transition_of_look {i : CallId} (h : p.look i = some q) :
    Transition held now p (.look i) q := by
  unfold look at h
  split at h
  next hcall =>
    -- Once the program is reaped there is nothing to ask for any more.
    cases hreaped : p.reaped? with
    | none => rw [hreaped] at h; cases h; exact .look i hcall hreaped
    | some outcome => rw [hreaped] at h; cases h; exact .lookLate i hcall (by rw [hreaped]; rfl)
  next => cases h

private theorem transition_of_send {i : CallId} (h : p.send i = some q) :
    Transition held now p (.send i) q := by
  unfold send at h
  split at h
  next hcall =>
    split at h
    next hexited => cases h; exact .sendLate i hcall hexited
    next hopen =>
      have hnone : p.exited? = none := by simpa using hopen
      -- The place for a request is free, or the caller stands in line.
      cases hslot : p.slot with
      | none => rw [hslot, if_pos rfl] at h; cases h; exact .send i hcall hnone hslot
      | some j =>
        rw [hslot, if_neg (by simp)] at h
        cases h
        exact .queue i j hcall hnone hslot
  next => cases h

/-- **Completeness**: every step of a process is a transition. -/
theorem transition_of_step {a : Action} (h : p.step held now a = some q) :
    Transition held now p a q := by
  cases a with
  | terminate => cases h; exact .terminate
  | finish status => exact transition_of_finish h
  | drain =>
    simp only [step, drain] at h
    split at h
    next hnot => cases h; exact .drain hnot
    next => cases h
  | reap =>
    simp only [step, reap] at h
    split at h
    next outcome hphase hended => cases h; exact .reap outcome hphase hended
    next => cases h
  | take => exact transition_of_take h
  | abandon => exact transition_of_abandon h
  | collect =>
    simp only [step, collect] at h
    split at h
    next hphase => cases h; exact .collect hphase
    next i hphase => cases h; exact .answer i hphase
    all_goals cases h
  | resist =>
    simp only [step, resist] at h
    split at h
    next hphase => cases h; exact .resist hphase
    next i hphase => cases h; exact .deny i hphase
    all_goals cases h
  | publish => exact transition_of_publish h
  | look i => exact transition_of_look h
  | send i => exact transition_of_send h
  | giveUp i =>
    simp only [step, giveUp] at h
    split at h
    next hguard =>
      simp only [Bool.and_eq_true, Bool.or_eq_true, decide_eq_true_eq] at hguard
      cases h
      exact .giveUp i hguard.1 hguard.2
    next => cases h
  | leave i =>
    simp only [step, leave] at h
    split at h
    next hguard =>
      simp only [Bool.and_eq_true, decide_eq_true_eq] at hguard
      cases h
      exact .leave i hguard.1 hguard.2
    next => cases h

/-- Only a program that was killed, and could be reaped then, can resist. -/
theorem resist_eq_none (h : p.collect now = none) : p.resist now = none := by
  unfold collect at h
  unfold resist
  cases hphase : p.phase with
  | killing caller => cases caller <;> simp [hphase] at h
  | watching | draining | finished => rfl

end Completeness

/-! ## Signals last -/

section Signals

variable {held : Bool} {now : Time} {p q : Process} {a : Action}

/-- A program that was reaped stays reaped, with the same outcome. -/
theorem Transition.reaped_eq (h : Transition held now p a q) {outcome : Outcome}
    (reaped : p.reaped? = some outcome) : q.reaped? = some outcome := by
  cases h with
  -- The phases that a reaped process can be in go on to phases with the same outcome.
  | finish status alive => rw [alive] at reaped; cases reaped
  | reap outcome' phase | take i phase | takeFirst i j rest phase | abandon phase | collect phase
  | answer i phase | resist phase | deny i phase => simp [reaped?, phase] at reaped
  | publish outcome' since phase =>
    simp only [reaped?, phase] at reaped
    exact reaped
  | _ => exact reaped

/-- A process that is done with stays so, with the same outcome. -/
theorem Transition.exited_eq (h : Transition held now p a q) {outcome : Outcome}
    (exited : p.exited? = some outcome) : q.exited? = some outcome := by
  cases h with
  | reap outcome' phase | take i phase | takeFirst i j rest phase | abandon phase | collect phase
  | answer i phase | resist phase | deny i phase | publish outcome' since phase =>
    simp [exited?, phase] at exited
  | _ => exact exited

/-- Whoever has exited was reaped. -/
theorem reaped_of_exited (h : p.exited?.isSome = true) : p.reaped?.isSome = true := by
  unfold exited? at h
  split at h
  next outcome reapedAt exitedAt hphase => simp [reaped?, hphase]
  all_goals cases h

/-- A process fails in its settle window by being reaped. -/
theorem reaped_eq_of_failed {deadline : Time} {outcome : Outcome}
    (verdict : p.verdict? now deadline = some (.failed outcome)) : p.reaped? = some outcome := by
  unfold verdict? at verdict
  split at verdict
  next hreaped =>
    cases verdict
    exact hreaped
  next => split at verdict <;> cases verdict

theorem reaped_of_failed {deadline : Time} {outcome : Outcome}
    (verdict : p.verdict? now deadline = some (.failed outcome)) : p.reaped?.isSome = true :=
  Option.isSome_of_mem (reaped_eq_of_failed verdict)

/-- A process has settled if it was not reaped by the deadline. -/
theorem alive_of_settled {deadline : Time} (verdict : p.verdict? now deadline = some .settled) :
    p.reaped? = none ∧ deadline ≤ now := by
  unfold verdict? at verdict
  split at verdict
  next => cases verdict
  next halive =>
    split at verdict
    next hdue => exact ⟨halive, hdue⟩
    next => cases verdict

/-- As long as there is no verdict, the process lives in its settle window. -/
theorem alive_of_undecided {deadline : Time} (verdict : p.verdict? now deadline = none) :
    p.reaped? = none ∧ now < deadline := by
  unfold verdict? at verdict
  split at verdict
  next => cases verdict
  next halive =>
    split at verdict
    next => cases verdict
    next hearly => exact ⟨halive, Nat.lt_of_not_le hearly⟩

/-- Whoever was reaped stays so. -/
theorem Transition.isSome_reaped (h : Transition held now p a q)
    (reaped : p.reaped?.isSome = true) : q.reaped?.isSome = true := by
  obtain ⟨outcome, hreaped⟩ := Option.isSome_iff_exists.mp reaped
  rw [h.reaped_eq hreaped]
  rfl

/-- Whoever has exited stays so. -/
theorem Transition.isSome_exited (h : Transition held now p a q)
    (exited : p.exited?.isSome = true) : q.exited?.isSome = true := by
  obtain ⟨outcome, hexited⟩ := Option.isSome_iff_exists.mp exited
  rw [h.exited_eq hexited]
  rfl

/-- When the program was reaped. -/
def reapedAt? (p : Process) : Option Time :=
  match p.phase with
  | .watching | .killing _ => none
  | .draining _ reapedAt | .finished _ reapedAt _ => some reapedAt

theorem isSome_reapedAt (p : Process) : p.reapedAt?.isSome = p.reaped?.isSome := by
  unfold reapedAt? reaped?
  cases p.phase <;> rfl

/-- A program is reaped once, and the time of that is kept. -/
theorem Transition.reapedAt_cases (h : Transition held now p a q) :
    q.reapedAt? = p.reapedAt? ∨ p.reapedAt? = none ∧ q.reapedAt? = some now := by
  cases h with
  | reap outcome phase | collect phase | answer i phase | resist phase | deny i phase =>
    exact .inr ⟨by simp only [reapedAt?, phase], rfl⟩
  | take i phase | takeFirst i j rest phase | abandon phase | publish outcome since phase =>
    exact .inl (by simp only [reapedAt?, phase])
  | _ => exact .inl rfl

/-- Only a caller who comes is a new one. -/
theorem Transition.length_calls (h : Transition held now p a q) (ha : a ≠ .terminate) :
    q.calls.length = p.calls.length := by
  cases h with
  | terminate => exact absurd rfl ha
  | takeFirst | answer | deny | lookLate | look | sendLate | send | queue | giveUp | leave =>
    exact List.length_set
  | _ => rfl

end Signals

/-! ## Callers and the monitor -/

/-- What relates the callers to the monitor: who waits has a reason to, nobody has returned before
the monitor let go of the program, and while the monitor watches the place of the request is taken
before anybody stands in line. -/
structure Sound (p : Process) : Prop where
  waiting : ∀ i : CallId, p.calls[i]? = some .waiting → p.reaped?.isSome = true
  returned : ∀ i : CallId, p.calls[i]? = some .returned → p.reaped?.isSome = true
  requested : p.phase = .watching → ∀ i : CallId,
    p.calls[i]? = some .requested ∨ p.calls[i]? = some .queued → p.slot.isSome = true
  asked : p.slot.isSome = true → p.calls ≠ []

section Soundness

variable {held : Bool} {now : Time} {p q : Process} {a : Action}

theorem Sound.fresh : Sound fresh where
  waiting i h := by cases h
  returned i h := by cases h
  requested _ i h := by rcases h with h | h <;> cases h
  asked h := by cases h

theorem getElem?_set_eq_some {calls : List Call} {i j : Nat} {c d : Call}
    (h : (calls.set i c)[j]? = some d) : d = c ∨ calls[j]? = some d := by
  rw [List.getElem?_set] at h
  split at h
  · split at h
    · exact .inl (Option.some.inj h).symm
    · cases h
  · exact .inr h

/-- A caller gets a standing that the phase of the monitor allows for. -/
theorem Sound.setCall (h : Sound p) (i : CallId) {c : Call}
    (waiting : c = .waiting → p.reaped?.isSome = true)
    (returned : c = .returned → p.reaped?.isSome = true)
    (requested : c = .requested ∨ c = .queued → p.slot.isSome = true) : Sound (p.setCall i c) where
  waiting j hj := by
    rcases getElem?_set_eq_some hj with hc | hj
    · exact waiting hc.symm
    · exact h.waiting j hj
  returned j hj := by
    rcases getElem?_set_eq_some hj with hc | hj
    · exact returned hc.symm
    · exact h.returned j hj
  requested hphase j hj := by
    rcases hj with hj | hj
    · rcases getElem?_set_eq_some hj with hc | hj
      · exact requested (.inl hc.symm)
      · exact h.requested hphase j (.inl hj)
    · rcases getElem?_set_eq_some hj with hc | hj
      · exact requested (.inr hc.symm)
      · exact h.requested hphase j (.inr hj)
  asked hslot hcalls := h.asked hslot (by simpa [Process.setCall] using hcalls)

/-- Somebody's request comes to its place. -/
theorem Sound.setSlot (h : Sound p) (i : CallId) (asked : p.calls ≠ []) :
    Sound { p with slot := some i } where
  waiting := h.waiting
  returned := h.returned
  requested _ _ _ := rfl
  asked _ := asked

/-- The monitor leaves off watching, or goes on from there. -/
theorem Sound.pass (h : Sound p) (phase : q.phase ≠ .watching) (calls : q.calls = p.calls)
    (slot : q.slot.isSome = true → p.slot.isSome = true)
    (reaped : p.reaped?.isSome = true → q.reaped?.isSome = true) : Sound q where
  waiting i hi := reaped (h.waiting i (calls ▸ hi))
  returned i hi := reaped (h.returned i (calls ▸ hi))
  requested hwatching := absurd hwatching phase
  asked hslot := calls ▸ h.asked (slot hslot)

/-- One more caller does no harm. -/
theorem Sound.terminate (h : Sound p) : Sound p.terminate := by
  -- The new caller has only entered.
  have hold : ∀ {j : Nat} {c : Call}, p.terminate.calls[j]? = some c → c ≠ .entered →
      p.calls[j]? = some c := by
    intro j c hj hc
    rw [Process.terminate, List.getElem?_append] at hj
    split at hj
    · exact hj
    · have hmem := List.mem_of_getElem? hj
      exact absurd (List.mem_singleton.mp hmem) hc
  refine ⟨fun i hi => ?_, fun i hi => ?_, fun hphase i hi => ?_, fun _ => ?_⟩
  · exact h.waiting i (hold hi (by decide))
  · exact h.returned i (hold hi (by decide))
  · exact h.requested hphase i (hi.imp (hold · (by decide)) (hold · (by decide)))
  · simp [Process.terminate]

/-- The invariant is kept by every step. -/
theorem Sound.step (h : Sound p) (hs : p.step held now a = some q) : Sound q := by
  cases transition_of_step hs with
  | terminate => exact h.terminate
  | finish | drain => exact ⟨h.waiting, h.returned, h.requested, h.asked⟩
  | reap => exact h.pass (by simp) rfl id fun _ => rfl
  | take i phase slot => exact h.pass (by simp) rfl (by simp) (by simp [reaped?, phase])
  | takeFirst i j rest phase slot =>
    -- The monitor turns to the first request, and the next one comes to the place.
    have hpass : Sound { p with phase := .killing (some i), queue := rest } :=
      h.pass (by simp) rfl id (by simp [reaped?, phase])
    have hset := hpass.setCall j (c := .requested) (by simp) (by simp) fun _ => by simp [slot]
    refine hset.setSlot j (hset.asked ?_)
    simp [Process.setCall, slot]
  | abandon phase => exact h.pass (by simp) rfl id (by simp [reaped?, phase])
  | collect | resist => exact h.pass (by simp) rfl id fun _ => rfl
  | answer i =>
    have hpass : Sound { p with phase := .draining .killed now } :=
      h.pass (by simp) rfl id fun _ => rfl
    exact hpass.setCall i (fun _ => rfl) (by simp) (by simp)
  | deny i =>
    have hpass : Sound { p with phase := .draining .killed now } :=
      h.pass (by simp) rfl id fun _ => rfl
    exact hpass.setCall i (by simp) (fun _ => rfl) (by simp)
  | publish => exact h.pass (by simp) rfl id fun _ => rfl
  | lookLate i call reaped => exact h.setCall i (fun _ => reaped) (by simp) (by simp)
  | look i => exact h.setCall i (by simp) (by simp) (by simp)
  | sendLate i call exited =>
    exact h.setCall i (fun _ => reaped_of_exited exited) (by simp) (by simp)
  | send i call open_ slot =>
    -- The sender itself is a caller.
    have hasked : p.calls ≠ [] := by
      intro hnil
      rw [hnil] at call
      cases call
    exact (h.setSlot i hasked).setCall i (by simp) (by simp) fun _ => rfl
  | queue i j call open_ slot =>
    have hset := h.setCall i (c := .queued) (by simp) (by simp) fun _ => by simp [slot]
    exact ⟨hset.waiting, hset.returned, hset.requested, hset.asked⟩
  | giveUp i call exited => exact h.setCall i (fun _ => reaped_of_exited exited) (by simp) (by simp)
  | leave i call exited =>
    exact h.setCall i (by simp) (fun _ => reaped_of_exited exited) (by simp)

/-- Whether the program was killed and is about to be reaped. -/
def isKilling (p : Process) : Bool :=
  match p.phase with
  | .killing _ => true
  | .watching | .draining _ _ | .finished _ _ _ => false

/-- A program is killed only if somebody has asked for it, or nobody holds its process. -/
theorem Sound.unwanted_of_kill (h : Sound p) (t : Transition held now p a q)
    (before : p.isKilling = false) (after : q.isKilling = true) :
    p.phase = .watching ∧ (p.calls ≠ [] ∨ held = false) := by
  cases t with
  | take i phase slot => exact ⟨phase, .inl (h.asked (by rw [slot]; rfl))⟩
  | takeFirst i j rest phase slot => exact ⟨phase, .inl (h.asked (by rw [slot]; rfl))⟩
  | abandon phase unheld => exact ⟨phase, .inr unheld⟩
  | reap | collect | answer | resist | deny | publish => cases after
  | _ => exact absurd (before.symm.trans after) (by decide)

/-- While the monitor watches and nothing happens of itself, nobody has asked for anything. -/
theorem Sound.calls_of_quiet (h : Sound p) (phase : p.phase = .watching)
    (quiet : ∀ a, a.isUrgent = true → p.step held now a = none) : p.calls = [] := by
  -- A request in its place would be taken.
  have hslot : p.slot = none := by
    cases hslot : p.slot with
    | none => rfl
    | some i =>
      have htake := quiet .take rfl
      simp only [Process.step, take, phase, hslot] at htake
      split at htake <;> cases htake
  cases hcalls : p.calls with
  | nil => rfl
  | cons c rest =>
    have hfirst : p.calls[0]? = some c := by rw [hcalls]; rfl
    have hreaped : p.reaped? = none := by simp only [reaped?, phase]
    have hexited : p.exited? = none := by simp only [exited?, phase]
    -- Whatever the first caller does, it goes on or has a reason to wait.
    cases c with
    | entered =>
      have hlook := quiet (.look 0) rfl
      simp [Process.step, look, hfirst] at hlook
    | sending =>
      have hsend := quiet (.send 0) rfl
      simp [Process.step, send, hfirst, hexited, hslot] at hsend
    | requested =>
      have := h.requested phase 0 (.inl hfirst)
      rw [hslot] at this
      cases this
    | queued =>
      have := h.requested phase 0 (.inr hfirst)
      rw [hslot] at this
      cases this
    | waiting =>
      have := h.waiting 0 hfirst
      rw [hreaped] at this
      cases this
    | returned =>
      have := h.returned 0 hfirst
      rw [hreaped] at this
      cases this

/-- **Nothing is left running**: when nothing happens of itself any more, a process that nobody
holds, or whose termination was asked for, is reaped. -/
theorem Sound.reaped_of_quiet (h : Sound p)
    (quiet : ∀ a, a.isUrgent = true → p.step held now a = none)
    (unwanted : held = false ∨ p.calls ≠ []) : p.reaped?.isSome = true := by
  cases hphase : p.phase with
  | watching =>
    -- Nobody has asked for anything, so nobody holds the process: it would be abandoned.
    have hcalls := h.calls_of_quiet hphase quiet
    have hslot : p.slot = none := by
      cases hslot : p.slot with
      | none => rfl
      | some i => exact absurd hcalls (h.asked (by rw [hslot]; rfl))
    have hunheld : held = false := unwanted.resolve_right (· hcalls)
    have habandon := quiet .abandon rfl
    simp [Process.step, abandon, hphase, hunheld, isIdle, hcalls, hslot] at habandon
  | killing caller =>
    have hcollect := quiet .collect rfl
    cases caller <;> simp [Process.step, collect, hphase] at hcollect
  | draining outcome since => simp [reaped?, hphase]
  | finished outcome reapedAt exitedAt => simp [reaped?, hphase]

/-- When nothing happens of itself any more, a caller who is not done waits for the end of the
output of a program that was reaped, and not for longer than the drain grace. -/
theorem Sound.draining_of_quiet (h : Sound p)
    (quiet : ∀ a, a.isUrgent = true → p.step held now a = none) {i : CallId} {c : Call}
    (call : p.calls[i]? = some c) (notDone : c ≠ .returned) :
    ∃ outcome since, p.phase = .draining outcome since ∧ p.drainedAt = none ∧
      now < since + drainGrace := by
  have hasked : p.calls ≠ [] := List.ne_nil_of_mem (List.mem_of_getElem? call)
  have hreaped := h.reaped_of_quiet quiet (.inr hasked)
  cases hphase : p.phase with
  | watching | killing caller => simp [reaped?, hphase] at hreaped
  | draining outcome since =>
    have hpublish := quiet .publish rfl
    simp only [Process.step, publish, hphase] at hpublish
    split at hpublish
    next => cases hpublish
    next hnot =>
      simp only [Bool.or_eq_true, not_or, decide_eq_true_eq, Nat.not_le] at hnot
      exact ⟨outcome, since, rfl, by simpa using hnot.1, hnot.2⟩
  | finished outcome reapedAt exitedAt =>
    -- The monitor is done, so every caller can go on.
    have hexited : p.exited?.isSome = true := by simp [exited?, hphase]
    cases c with
    | entered =>
      have hlook := quiet (.look i) rfl
      simp [Process.step, look, call] at hlook
    | sending =>
      have hsend := quiet (.send i) rfl
      simp [Process.step, send, call, hexited] at hsend
    | requested | queued =>
      have hgiveUp := quiet (.giveUp i) rfl
      simp [Process.step, giveUp, call, hexited] at hgiveUp
    | waiting =>
      have hleave := quiet (.leave i) rfl
      simp [Process.step, leave, call, hexited] at hleave
    | returned => exact absurd rfl notDone

end Soundness

/-! ## Processes that were not killed -/

/-- Nobody has killed the program: if it has ended, it has ended by itself. -/
structure Unharmed (p : Process) : Prop where
  notKilling : p.isKilling = false
  byItself : ∀ outcome, p.reaped? = some outcome → outcome ≠ .killed
  /-- How it ended by itself, perhaps before it is reaped. -/
  ending : ∀ outcome, p.ended = some outcome → outcome ≠ .killed

section Harm

variable {held : Bool} {now : Time} {p q : Process} {a : Action}

theorem Unharmed.fresh : Unharmed fresh where
  notKilling := rfl
  byItself outcome h := by cases h
  ending outcome h := by cases h

theorem Unharmed.of_phase (h : Unharmed p) (phase : q.phase = p.phase)
    (ending : ∀ outcome, q.ended = some outcome → outcome ≠ .killed) : Unharmed q where
  notKilling := by
    have hp := h.notKilling
    simp only [isKilling, phase] at hp ⊢
    exact hp
  byItself := by
    have hp := h.byItself
    simp only [reaped?, phase] at hp ⊢
    exact hp
  ending := ending

/-- Whoever is held, and whose termination nobody asks for, is not killed. -/
theorem Unharmed.step (h : Unharmed p) (sound : p.Sound) (unasked : p.calls = [])
    (kept : p.reaped?.isSome = true ∨ held = true) (t : Transition held now p a q) :
    Unharmed q := by
  have hslot : p.slot = none := by
    cases hslot : p.slot with
    | none => rfl
    | some i => exact absurd unasked (sound.asked (by rw [hslot]; rfl))
  cases t with
  | finish status alive notYet =>
    refine h.of_phase rfl ?_
    intro outcome houtcome
    cases houtcome
    exact Outcome.ofStatus_ne_killed status
  | reap outcome phase ended =>
    refine ⟨rfl, ?_, h.ending⟩
    -- The monitor publishes how the program ended by itself.
    intro outcome' houtcome
    cases houtcome
    exact h.ending outcome ended
  | publish outcome since phase due =>
    refine ⟨rfl, ?_, h.ending⟩
    intro outcome' houtcome
    exact h.byItself outcome' (by simpa [reaped?, phase] using houtcome)
  -- There is no request that could be taken.
  | take i phase slot | takeFirst i j rest phase slot =>
    rw [hslot] at slot
    cases slot
  | abandon phase unheld =>
    rcases kept with hreaped | hheld
    · simp [reaped?, phase] at hreaped
    · rw [unheld] at hheld
      cases hheld
  | collect phase | answer i phase | resist phase | deny i phase =>
    have hkilling := h.notKilling
    simp [isKilling, phase] at hkilling
  | _ => exact h.of_phase rfl h.ending

end Harm

end OnionPool.Process
