import OnionPool.Proofs.ProcessTransition
import OnionPool.Proofs.ProxyTransition

/-!
# The instances of the reverse proxy

Every start of an instance has a place of its own in the list of starts, and keeps it. What a step
can do to its process is a step of that process.

## Structure

- The first section says how the process of an instance is found after a start or a change.
- `Transition.starts_eq` says what a step does to the starts, `Transition.process_step` and
  `Transition.process_of_step` what it does to the process of an instance, forwards and backwards.
- `Transition.settling_of_step` says who settles, `Transition.settled` that nobody does so twice,
  `Transition.settling_step` what becomes of one that settles.
- `SamePlaces` says that nobody was put at another place, and `Transition.samePlaces` which steps
  leave everybody where they are.
-/

namespace OnionPool.Proxy

/-! ## Processes of instances -/

section Instances

variable {p q : Proxy} {i j : InstanceId}

/-- Processes are found among the instances that were started. -/
theorem process?_congr (starts : q.starts = p.starts) (i : InstanceId) :
    q.process? i = p.process? i := by
  simp only [process?, starts]

theorem process?_setProcess_self {process : Process} (there : p.process? i = some process)
    (process' : Process) : (p.setProcess i process').process? i = some process' := by
  obtain ⟨s, hs, hprocess⟩ := Option.bind_eq_some_iff.mp there
  obtain ⟨⟨pid, old⟩, hold, -⟩ := Option.map_eq_some_iff.mp hprocess
  simp [process?, setProcess, hs, hold]

theorem process?_setProcess_ne (p : Proxy) (h : i ≠ j) (process : Process) :
    (p.setProcess i process).process? j = p.process? j := by
  simp [process?, setProcess, h]

theorem lt_of_process? {process : Process} (there : p.process? i = some process) :
    i < p.starts.length := by
  obtain ⟨s, hs, -⟩ := Option.bind_eq_some_iff.mp there
  exact (List.getElem?_eq_some_iff.mp hs).1

/-- An instance has the process that was set, or keeps its own. -/
theorem process?_setProcess_eq_some {process process' r : Process}
    (there : p.process? i = some process) (h : (p.setProcess i process').process? j = some r) :
    (i = j ∧ r = process') ∨ (i ≠ j ∧ p.process? j = some r) := by
  by_cases hij : i = j
  · subst hij
    rw [process?_setProcess_self there] at h
    exact .inl ⟨rfl, (Option.some.inj h).symm⟩
  · rw [process?_setProcess_ne p hij] at h
    exact .inr ⟨hij, h⟩

theorem isSome_process?_setProcess {process : Process} (there : p.process? i = some process)
    (process' : Process) (j : InstanceId) :
    ((p.setProcess i process').process? j).isSome = (p.process? j).isSome := by
  by_cases hij : i = j
  · subst hij
    rw [process?_setProcess_self there, there]
    rfl
  · rw [process?_setProcess_ne p hij]

/-- Who is reaped stays so, if the process that is set is reaped when the one before it was. -/
theorem reaped_setProcess {process process' : Process} (there : p.process? i = some process)
    (kept : process.reaped?.isSome = true → process'.reaped?.isSome = true)
    (h : ∃ r, p.process? j = some r ∧ r.reaped?.isSome = true) :
    ∃ r, (p.setProcess i process').process? j = some r ∧ r.reaped?.isSome = true := by
  obtain ⟨r, hr, hreaped⟩ := h
  by_cases hij : i = j
  · subst hij
    cases there.symm.trans hr
    exact ⟨process', process?_setProcess_self there process', kept hreaped⟩
  · exact ⟨r, (process?_setProcess_ne p hij process').trans hr, hreaped⟩

/-- What was started before is as it was. -/
theorem process?_append (h : i < p.starts.length) {s : Start}
    (starts : q.starts = p.starts ++ [s]) : q.process? i = p.process? i := by
  simp only [process?, starts, List.getElem?_append_left h]

/-- The instance that was started last has the process that was spawned for it. -/
theorem process?_append_self {s : Start} (starts : q.starts = p.starts ++ [s]) :
    q.process? p.starts.length = s.process.map (·.2) := by
  simp [process?, starts]

/-- What is not there after a start was not there before, and what is there is old or new. -/
theorem process?_append_eq_some {s : Start} {r : Process} (starts : q.starts = p.starts ++ [s])
    (h : q.process? i = some r) :
    p.process? i = some r ∨ (i = p.starts.length ∧ s.process.map (·.2) = some r) := by
  have hlt := lt_of_process? h
  rw [starts, List.length_append, List.length_singleton] at hlt
  -- Only the last place is new.
  rcases Nat.lt_succ_iff_lt_or_eq.mp hlt with hlt | rfl
  · exact .inl (process?_append hlt starts ▸ h)
  · exact .inr ⟨rfl, process?_append_self starts ▸ h⟩

/-- An instance that could not be spawned has no process. -/
theorem process?_append_none {s : Start} (starts : q.starts = p.starts ++ [s])
    (hs : s.process = none) (i : InstanceId) : q.process? i = p.process? i := by
  cases hq : q.process? i with
  | some r =>
    rcases process?_append_eq_some starts hq with hold | ⟨-, hnew⟩
    · exact hold.symm
    · rw [hs] at hnew
      cases hnew
  | none =>
    cases hp : p.process? i with
    | none => rfl
    | some r =>
      have hsame := process?_append (lt_of_process? hp) starts
      rw [hq, hp] at hsame
      cases hsame

@[simp] theorem settling?_idle : Loop.settling? .idle = none := rfl

theorem isSettling_iff {l : Loop} : l.isSettling i = true ↔ l.settling? = some i :=
  decide_eq_true_iff

/-- Whether the loop waits for requests, or for the end of a burst. -/
def Loop.isWaiting : Loop → Bool
  | .idle | .pending _ _ _ => true
  | _ => false

theorem isWaiting_iff {l : Loop} :
    l.isWaiting = true ↔ l = .idle ∨ ∃ openedAt latestAt rs, l = .pending openedAt latestAt rs := by
  cases l <;> simp [Loop.isWaiting]

theorem settling?_of_waiting {l : Loop} (h : l.isWaiting = true) : l.settling? = none := by
  rcases isWaiting_iff.mp h with rfl | ⟨openedAt, latestAt, rs, rfl⟩ <;> rfl

theorem isUp_of_waiting (h : p.loop.isWaiting = true) : p.isUp = true := by
  rcases isWaiting_iff.mp h with loop | ⟨openedAt, latestAt, rs, loop⟩ <;> simp [isUp, loop]

theorem mem_of_grace? {g : Grace} (grace : p.grace? i = some g) : g ∈ p.graces ∧ g.retired = i := by
  have hsame := List.find?_some grace
  exact ⟨List.mem_of_find?_eq_some grace, by simpa using hsame⟩

end Instances

/-! ## What a step does to an instance -/

section Steps

variable {now : Time} {p q : Proxy} {a : Action} {i : InstanceId} {process : Process}

@[simp] theorem starts_request (p : Proxy) : p.request.starts = p.starts := by rw [request_eq]

@[simp] theorem starts_reloadNow (p : Proxy) : p.reloadNow.starts = p.starts := by
  rw [reloadNow_eq]

@[simp] theorem starts_refill (p : Proxy) : p.refill.starts = p.starts := by rw [refill_eq]

@[simp] theorem starts_conclude (p : Proxy) (now : Time) (job : Job)
    (replaces : Option InstanceId) (failure : Option Failure) :
    (p.conclude now job replaces failure).starts = p.starts := by
  rw [conclude_eq]

@[simp] theorem starts_takeOver (p : Proxy) (now : Time) (i : InstanceId) :
    (p.takeOver now i).starts = p.starts := by
  rw [takeOver_eq]

@[simp] theorem settling?_conclude (p : Proxy) (now : Time) (job : Job)
    (replaces : Option InstanceId) (failure : Option Failure) :
    (p.conclude now job replaces failure).loop.settling? = none := by
  unfold conclude
  split
  · split <;> rfl
  · rfl

/-- What a start begins with: the instance that serves is to be replaced, and the configuration is
the one that is in place. -/
structure Start.Begins (p : Proxy) (s : Start) : Prop where
  previous : s.previous = p.current
  config : s.config = p.folder.bind (·.config)
  fresh : ∀ pid process, s.process = some (pid, process) → process = .fresh

/-- A step leaves all instances as they are, or is a step of one process, or starts an instance,
which settles if it could be spawned. -/
theorem Transition.starts_eq (h : Transition now p a q) :
    q.starts = p.starts ∨
      (∃ i process b process', p.process? i = some process ∧
        process.step (p.holds i) now b = some process' ∧
        q.starts = (p.setProcess i process').starts) ∨
      ∃ (s : Start) (job : Job), p.loop = .working job .starting ∧ s.Begins p ∧
        q.starts = p.starts ++ [s] ∧
        q.loop.settling? = s.process.map fun _ => p.starts.length := by
  cases h with
  | register | deregister => exact .inl (starts_request _)
  | request => exact .inl (starts_request p)
  | reloadNow => exact .inl (starts_reloadNow p)
  | openBurst | prolong | answer | endBurst => exact .inl (starts_refill p)
  | prepareFails | writeFails | writeNowhere | renameFails | failEarly =>
    exact .inl (starts_conclude ..)
  | succeed => exact .inl ((starts_conclude ..).trans (starts_takeOver ..))
  | refuse job e loop =>
    refine .inr (.inr ⟨_, job, loop, ⟨rfl, rfl, ?_⟩, starts_conclude .., settling?_conclude ..⟩)
    intro pid process hprocess
    cases hprocess
  | spawn job pid settle loop =>
    refine .inr (.inr ⟨_, job, loop, ⟨rfl, rfl, ?_⟩, rfl, rfl⟩)
    intro pid process hprocess
    cases hprocess
    rfl
  -- The proxy asks an instance to end by a step of its process.
  | endGrace i g process grace there =>
    exact .inr (.inl ⟨i, process, .terminate, _, there, rfl, rfl⟩)
  | killNext c i rest process closing there =>
    exact .inr (.inl ⟨i, process, .terminate, _, there, rfl, rfl⟩)
  | process i b process process' there notAsked step =>
    exact .inr (.inl ⟨i, process, b, process', there, step, rfl⟩)
  | _ => exact .inl rfl

/-- A step leaves the process of an instance as it is, or is a step of that process. -/
theorem Transition.process_step (h : Transition now p a q) (there : p.process? i = some process) :
    ∃ process', q.process? i = some process' ∧
      (process' = process ∨ ∃ b, process.step (p.holds i) now b = some process') := by
  rcases h.starts_eq with starts | ⟨j, old, b, new, hold, hstep, starts⟩ |
    ⟨s, -, -, -, starts, -⟩
  · exact ⟨process, (process?_congr starts i).trans there, .inl rfl⟩
  · rw [process?_congr starts]
    -- Another instance goes on, or this one.
    by_cases hij : j = i
    · subst hij
      cases there.symm.trans hold
      exact ⟨new, process?_setProcess_self hold new, .inr ⟨b, hstep⟩⟩
    · exact ⟨process, (process?_setProcess_ne p hij new).trans there, .inl rfl⟩
  · exact ⟨process, (process?_append (lt_of_process? there) starts).trans there, .inl rfl⟩

/-- Whatever process an instance has after a step, it had it before, up to a step of that process;
or it was just spawned, and settles. -/
theorem Transition.process_of_step {process' : Process} (h : Transition now p a q)
    (there : q.process? i = some process') :
    (∃ process, p.process? i = some process ∧
      (process' = process ∨ ∃ b, process.step (p.holds i) now b = some process')) ∨
    (process' = .fresh ∧ q.loop.settling? = some i) := by
  cases hold : p.process? i with
  | some process =>
    obtain ⟨r, hr, hstep⟩ := h.process_step hold
    cases there.symm.trans hr
    exact .inl ⟨process, rfl, hstep⟩
  | none =>
    -- It was not there before, so it can only be the one that is started.
    rcases h.starts_eq with starts | ⟨j, old, b, new, hj, -, starts⟩ |
      ⟨s, -, -, hs, starts, settles⟩
    · rw [process?_congr starts, hold] at there
      cases there
    · rw [process?_congr starts] at there
      rcases process?_setProcess_eq_some hj there with ⟨rfl, -⟩ | ⟨-, hsame⟩
      · rw [hold] at hj
        cases hj
      · rw [hold] at hsame
        cases hsame
    · rcases process?_append_eq_some starts there with hsame | ⟨rfl, hnew⟩
      · rw [hold] at hsame
        cases hsame
      · obtain ⟨⟨pid, fresh⟩, hprocess, rfl⟩ := Option.map_eq_some_iff.mp hnew
        rw [hprocess] at settles
        exact .inr ⟨hs.fresh pid _ hprocess, settles⟩

/-- Whoever settles after a step did so before, or was just spawned. -/
theorem Transition.settling_of_step (h : Transition now p a q)
    (settles : q.loop.settling? = some i) :
    p.loop.settling? = some i ∨ (i = p.starts.length ∧ q.process? i = some .fresh) := by
  have hnone : q.loop.settling? = none → p.loop.settling? = some i ∨
      (i = p.starts.length ∧ q.process? i = some .fresh) := by
    intro hq
    rw [hq] at settles
    cases settles
  cases h with
  | register port => exact .inl (loop_request (p.insert port) ▸ settles)
  | deregister port => exact .inl (loop_request (p.remove port) ▸ settles)
  | request => exact .inl (loop_request p ▸ settles)
  | reloadNow => exact .inl (loop_reloadNow p ▸ settles)
  | prepareFails | writeFails | writeNowhere | renameFails | failEarly | succeed | refuse =>
    exact hnone (settling?_conclude ..)
  | openBurst | prolong | answer | endBurst | expire | halt | prepare | write | rename =>
    exact hnone rfl
  | spawn =>
    cases settles
    exact .inr ⟨rfl, (process?_append_self (p := p) rfl).trans rfl⟩
  | _ => exact .inl settles

/-- An instance whose settle window is over does not settle again. -/
theorem Transition.settled (h : Transition now p a q) (there : p.process? i = some process)
    (settled : p.loop.settling? ≠ some i) : q.loop.settling? ≠ some i := by
  intro settles
  rcases h.settling_of_step settles with hbefore | ⟨rfl, -⟩
  · exact settled hbefore
  · exact Nat.lt_irrefl _ (lt_of_process? there)

/-- Whoever settles still does after a step, or the verdict on it was found: it has taken over, or
it was reaped. -/
theorem Transition.settling_step (h : Transition now p a q) (there : p.process? i = some process)
    (settles : p.loop.settling? = some i) :
    q.loop.settling? = some i ∨ q.current = some i ∨ process.reaped?.isSome = true := by
  have hsame : q.loop = p.loop → q.loop.settling? = some i := fun loop => loop ▸ settles
  cases h with
  | register | deregister => exact .inl (hsame (loop_request _))
  | request => exact .inl (hsame (loop_request p))
  | reloadNow => exact .inl (hsame (loop_reloadNow p))
  | succeed job j due r loop =>
    rw [loop] at settles
    cases settles
    rw [conclude_eq, takeOver_eq]
    exact .inr (.inl rfl)
  | failEarly job j due r outcome loop hold verdict =>
    rw [loop] at settles
    cases settles
    cases there.symm.trans hold
    exact .inr (.inr (Process.reaped_of_failed verdict))
  -- At all other stages nobody settles.
  | openBurst _ _ _ loop | prolong _ _ _ _ _ _ loop | answer _ _ _ loop
  | endBurst _ _ _ _ _ _ loop | expire _ _ _ loop | prepare _ loop | prepareFails _ _ loop
  | write _ _ loop | writeFails _ _ _ _ loop | writeNowhere _ _ loop | rename _ _ loop
  | renameFails _ _ _ loop | spawn _ _ _ loop | refuse _ _ loop =>
    rw [loop] at settles
    cases settles
  | halt _ loop =>
    rcases loop with loop | ⟨openedAt, latestAt, rs, loop⟩
    all_goals
      rw [loop] at settles
      cases settles
  | _ => exact .inl (hsame rfl)

/-- What only a loop does that has not ended. -/
def Action.IsLoopWork : Action → Prop
  | receive | expire | halt | prepare _ | write _ | rename _ | spawn _ _ | refuse _ | judge => True
  | _ => False

/-- A loop that works has not stopped. -/
theorem Transition.loop_ne_stopped (h : Transition now p a q) (ha : a.IsLoopWork) :
    p.loop ≠ .stopped := by
  intro stopped
  cases h with
  | openBurst _ _ _ loop | prolong _ _ _ _ _ _ loop | answer _ _ _ loop
  | endBurst _ _ _ _ _ _ loop | expire _ _ _ loop | prepare _ loop | prepareFails _ _ loop
  | write _ _ loop | writeFails _ _ _ _ loop | writeNowhere _ _ loop | rename _ _ loop
  | renameFails _ _ _ loop | spawn _ _ _ loop | refuse _ _ loop | succeed _ _ _ _ loop
  | failEarly _ _ _ _ _ loop =>
    rw [stopped] at loop
    cases loop
  | halt _ loop =>
    rcases loop with loop | ⟨openedAt, latestAt, rs, loop⟩
    all_goals
      rw [stopped] at loop
      cases loop
  | _ => exact ha

/-- A loop that has ended does not go on. -/
theorem Transition.loop_of_stopped (h : Transition now p a q) (stopped : p.loop = .stopped) :
    q.loop = .stopped := by
  have hwork : ¬ a.IsLoopWork := fun ha => h.loop_ne_stopped ha stopped
  cases h with
  | register | deregister => exact (loop_request _).trans stopped
  | request => exact (loop_request p).trans stopped
  | reloadNow => exact (loop_reloadNow p).trans stopped
  | insert | remove | shutdown | tamper | endGrace | forget | join | killNext | skipNext | killed
  | clear | forgo | process => exact stopped
  | _ => exact absurd trivial hwork

end Steps

/-! ## Where instances are held -/

/-- The same instances retire, the same one is current, and the shutdowns are at the same points. -/
structure SamePlaces (p q : Proxy) : Prop where
  retiring : q.retiring = p.retiring
  current : q.current = p.current
  closings : q.closings = p.closings

/-- Everything but what may put an instance at another place. -/
def Action.KeepsPlaces : Action → Prop
  | shutdown | judge | forget _ | join _ | killNext _ | killed _ | clear _ | forgo _ _ => False
  | _ => True

section Places

variable {now : Time} {p q : Proxy} {a : Action}

theorem SamePlaces.refl (p : Proxy) : SamePlaces p p := ⟨rfl, rfl, rfl⟩

theorem SamePlaces.request (h : SamePlaces p q) : SamePlaces p q.request := by
  rw [request_eq]
  exact ⟨h.retiring, h.current, h.closings⟩

theorem SamePlaces.refill (h : SamePlaces p q) : SamePlaces p q.refill := by
  rw [refill_eq]
  exact ⟨h.retiring, h.current, h.closings⟩

theorem SamePlaces.conclude (h : SamePlaces p q) (job : Job) (replaces : Option InstanceId)
    (failure : Option Failure) : SamePlaces p (q.conclude now job replaces failure) := by
  rw [conclude_eq]
  exact ⟨h.retiring, h.current, h.closings⟩

/-- Only the handoffs and the shutdown move an instance from place to place. -/
theorem Transition.samePlaces (h : Transition now p a q) (ha : a.KeepsPlaces) :
    SamePlaces p q := by
  cases h with
  | shutdown | succeed | failEarly | forget | join | killNext | skipNext | killed | clear
  | forgo =>
    exact absurd ha id
  | register | deregister =>
    apply SamePlaces.request
    exact ⟨rfl, rfl, rfl⟩
  | request => exact (SamePlaces.refl p).request
  | reloadNow =>
    rw [reloadNow_eq]
    exact ⟨rfl, rfl, rfl⟩
  | openBurst | prolong | answer | endBurst =>
    have hrefill := (SamePlaces.refl p).refill
    exact ⟨hrefill.retiring, hrefill.current, hrefill.closings⟩
  | prepareFails | writeFails | writeNowhere | renameFails | refuse =>
    apply SamePlaces.conclude
    exact ⟨rfl, rfl, rfl⟩
  | _ => exact ⟨rfl, rfl, rfl⟩

/-- The shutdown begins with a call of it. -/
theorem Transition.closings_of_nil (h : Transition now p a q) (ha : a ≠ .shutdown)
    (closings : p.closings = []) : q.closings = [] := by
  have hkeeps : a.KeepsPlaces → q.closings = [] :=
    fun ha => (h.samePlaces ha).closings.trans closings
  cases h with
  | shutdown => exact absurd rfl ha
  | succeed =>
    rw [conclude_eq, takeOver_eq]
    exact closings
  | failEarly =>
    rw [conclude_eq]
    exact closings
  | forget => exact closings
  -- There is no call that could go on.
  | join c closing | killNext c _ _ _ closing | skipNext c _ _ closing | killed c _ _ _ closing
  | clear c closing | forgo c _ _ closing =>
    rw [closings] at closing
    cases closing
  | _ => exact hkeeps trivial

/-- Without a shutdown, no call of it is under way. -/
theorem closings_of_reach {plan : Plan} {folder : Option Folder}
    (h : machine.Reach (· ≠ .shutdown) { plan, folder } now p) : p.closings = [] :=
  h.induct (P := fun _ (s : Proxy) => s.closings = []) rfl
    (fun ih ha hs => (transition_of_step hs).closings_of_nil ha ih) fun ih _ => ih

/-- The calls of the shutdown are not forgotten. -/
theorem Transition.closings_ne_nil (h : Transition now p a q) (closings : p.closings ≠ []) :
    q.closings ≠ [] := by
  have hkeeps : a.KeepsPlaces → q.closings ≠ [] :=
    fun ha => (h.samePlaces ha).closings.symm ▸ closings
  cases h with
  | shutdown => exact List.append_ne_nil_of_right_ne_nil _ (List.cons_ne_nil _ _)
  | succeed =>
    rw [conclude_eq, takeOver_eq]
    exact closings
  | failEarly =>
    rw [conclude_eq]
    exact closings
  | forget => exact closings
  | join | killNext | skipNext | killed | clear | forgo =>
    exact fun hnil => closings (by simpa using hnil)
  | _ => exact hkeeps trivial

/-- The instance that serves changes with a verdict only, or when a shutdown collects it. -/
theorem Transition.current_eq (h : Transition now p a q) (ha : a ≠ .judge) :
    q.current = p.current ∨ (p.closings ≠ [] ∧ q.current = none) := by
  have hkeeps : a.KeepsPlaces → q.current = p.current := fun ha => (h.samePlaces ha).current
  cases h with
  | succeed | failEarly => exact absurd rfl ha
  | join c closing =>
    refine .inr ⟨fun hnil => ?_, rfl⟩
    rw [hnil] at closing
    cases closing
  | shutdown | forget | killNext | skipNext | killed | clear | forgo => exact .inl rfl
  | _ => exact .inl (hkeeps trivial)

end Places

/-! ## Who replaces whom -/

section Replacements

variable {now : Time} {p q : Proxy} {a : Action} {i : InstanceId}

theorem previous?_setProcess (p : Proxy) (i j : InstanceId) (process : Process) :
    (p.setProcess i process).previous? j = p.previous? j := by
  unfold previous? setProcess
  by_cases hij : i = j
  · subst hij
    cases hs : p.starts[i]? <;> simp [hs]
  · simp [hij]

/-- A start is for good: what it was to replace does not change. -/
theorem Transition.previous?_eq (h : Transition now p a q) (started : i < p.starts.length) :
    q.previous? i = p.previous? i := by
  rcases h.starts_eq with starts | ⟨j, -, -, process, -, -, starts⟩ | ⟨s, -, -, -, starts, -⟩
  · simp only [previous?, starts]
  · rw [← previous?_setProcess p j i process]
    simp only [previous?, starts]
  · simp only [previous?, starts, List.getElem?_append_left started]

/-- Whoever settles was spawned, and is to replace the instance that serves, unless a shutdown has
collected that one. -/
structure Succession (p : Proxy) : Prop where
  spawned : ∀ i, p.loop.settling? = some i → (p.process? i).isSome = true
  replaces : ∀ i, p.loop.settling? = some i →
    p.previous? i = p.current ∨ (p.closings ≠ [] ∧ p.current = none)

/-- Whoever settles was started. -/
theorem Succession.started (h : Succession p) (settles : p.loop.settling? = some i) :
    i < p.starts.length := by
  obtain ⟨process, there⟩ := Option.isSome_iff_exists.mp (h.spawned i settles)
  exact lt_of_process? there

/-- Whoever settles after a step was spawned. -/
theorem Succession.spawned_step (h : Succession p) (t : Transition now p a q)
    (settles : q.loop.settling? = some i) : (q.process? i).isSome = true := by
  rcases t.settling_of_step settles with hbefore | ⟨-, hfresh⟩
  · obtain ⟨process, there⟩ := Option.isSome_iff_exists.mp (h.spawned i hbefore)
    obtain ⟨process', there', -⟩ := t.process_step there
    rw [there']
    rfl
  · rw [hfresh]
    rfl

/-- The verdict ends the settle window. -/
theorem Transition.settling?_of_judge (h : Transition now p .judge q) :
    q.loop.settling? = none := by
  cases h <;> exact settling?_conclude ..

/-- Who is spawned is to replace the instance that serves at that moment. -/
theorem Transition.previous?_of_spawned (h : Transition now p a q)
    (spawned : (q.process? p.starts.length).isSome = true) :
    q.previous? p.starts.length = p.current := by
  obtain ⟨process, there⟩ := Option.isSome_iff_exists.mp spawned
  rcases h.starts_eq with starts | ⟨j, -, -, process, -, -, starts⟩ | ⟨s, -, -, hs, starts, -⟩
  -- Nothing is there unless it was started.
  · exact absurd (lt_of_process? there) (by simp [starts])
  · exact absurd (lt_of_process? there) (by simp [starts, setProcess])
  · rw [← hs.previous]
    simp [previous?, starts]

/-- Whoever settles replaces the instance that serves, unless a shutdown has collected it. -/
theorem Succession.replaces_step (h : Succession p) (t : Transition now p a q)
    (settles : q.loop.settling? = some i) :
    q.previous? i = q.current ∨ (q.closings ≠ [] ∧ q.current = none) := by
  have hjudge : a ≠ .judge := by
    rintro rfl
    rw [t.settling?_of_judge] at settles
    cases settles
  have hprevious : q.previous? i = p.current ∨ (p.closings ≠ [] ∧ p.current = none) := by
    rcases t.settling_of_step settles with hbefore | ⟨rfl, hfresh⟩
    · rw [t.previous?_eq (h.started hbefore)]
      exact h.replaces i hbefore
    · exact .inl (t.previous?_of_spawned (by rw [hfresh]; rfl))
  rcases t.current_eq hjudge with current | ⟨closings, current⟩
  · rw [current]
    exact hprevious.imp_right (And.imp_left t.closings_ne_nil)
  · exact .inr ⟨t.closings_ne_nil closings, current⟩

/-- The invariant holds in every run. -/
theorem Succession.of_reach {allowed : Action → Prop} {plan : Plan} {folder : Option Folder}
    (h : machine.Reach allowed { plan, folder } now p) : Succession p := by
  refine h.induct (P := fun _ (s : Proxy) => Succession s) ?_ (fun ih _ hs => ?_) fun ih _ => ih
  · constructor <;> intro i settles <;> cases settles
  · have t := transition_of_step hs
    exact ⟨fun _ => ih.spawned_step t, fun _ => ih.replaces_step t⟩

/-- As long as there is no shutdown, whoever settles is to replace the instance that serves. -/
theorem previous?_of_settling {plan : Plan} {folder : Option Folder}
    (h : machine.Reach (· ≠ .shutdown) { plan, folder } now p)
    (settles : p.loop.settling? = some i) : p.previous? i = p.current :=
  ((Succession.of_reach h).replaces i settles).resolve_right fun hclosings =>
    hclosings.1 (closings_of_reach h)

end Replacements

end OnionPool.Proxy
