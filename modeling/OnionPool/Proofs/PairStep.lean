import OnionPool.Pair.Life
import OnionPool.Proofs.ProcessTransition

/-!
# What one step of a pair can be

A pair is started and taken down in steps that touch what pairs share: the ports, the directories
and the processes. The steps are listed here, once for chores and once for starts.

## Structure

- `Chore.Part` lists the parts of chores, `Startup.Advance` the steps of a start.
- `Chore.part_of_step` and `Startup.advance_of_step` say that the lists are complete.
- `PairLife.Transition` lists the steps of a pair by itself, and `PairLife.transition_of_step` says
  that the list is complete.
- `Site.processStep_eq_some` says what can happen to a process that was started, and
  `Site.SoundFrom` that all processes from some number on are sound, whatever happens to them.
-/

namespace OnionPool

/-! ## Chores -/

/-- The parts of chores: from the chores that are to be done to those that are left, and to what
pairs share after it. -/
inductive Chore.Part (s : Site) : List Chore → List Chore → Site → Prop where
  | stop (w : WorkerId) (process : Process) (rest : List Chore)
      (there : s.process? w = some process) :
      Part s (.stop w :: rest) (.await w process.nextCall :: rest)
        (s.setProcess w process.terminate)
  | skip (w : WorkerId) (rest : List Chore) (gone : s.process? w = none) :
      Part s (.stop w :: rest) rest s
  | await (w : WorkerId) (call : CallId) (rest : List Chore)
      (returned : (s.process? w).any (·.hasReturned call) = true) :
      Part s (.await w call :: rest) rest (s.drop w)
  | clear (seat : Seat) (rest : List Chore) : Part s (.clear seat :: rest) rest (s.clear seat)
  /-- The directory cannot be removed, and is left there. -/
  | forgo (seat : Seat) (left : Contents) (rest : List Chore) (there : s.hasFolder seat = true) :
      Part s (.clear seat :: rest) rest (s.forgo seat left)
  | release (port : Port) (rest : List Chore) :
      Part s (.release port :: rest) rest (s.release port)

/-- A step of some chores is a part of them. -/
theorem Chore.part_of_step {chores rest : List Chore} {s s' : Site}
    (h : Chore.step chores s = some (rest, s')) : Chore.Part s chores rest s' := by
  unfold step at h
  split at h
  next => cases h
  next w rest =>
    split at h
    next process hthere => cases h; exact .stop w process _ hthere
    next hgone => cases h; exact .skip w _ hgone
  next w call rest =>
    split at h
    next hreturned => cases h; exact .await w call _ hreturned
    next => cases h
  next seat rest => cases h; exact .clear seat _
  next port rest => cases h; exact .release port _

/-- A removal that fails is a part of some chores, too. -/
theorem Chore.part_of_forgo {left : Contents} {chores rest : List Chore} {s s' : Site}
    (h : Chore.forgo left chores s = some (rest, s')) : Chore.Part s chores rest s' := by
  unfold forgo at h
  split at h
  next seat rest =>
    split at h
    next hthere => cases h; exact .forgo seat left _ hthere
    next => cases h
  next => cases h

/-- Whoever does its chores forgoes no removal. -/
theorem Chore.forgone_of_step {chores rest : List Chore} {s s' : Site}
    (h : Chore.step chores s = some (rest, s')) : s'.forgone = s.forgone := by
  unfold step at h
  split at h
  next => cases h
  next => split at h <;> cases h <;> rfl
  next => split at h <;> cases h; rfl
  next => cases h; rfl
  next => cases h; rfl

/-! ## Starts -/

/-- The steps of a start by an action, to a start and to what pairs share after it. -/
inductive Startup.Advance (now : Time) (stop : StopSignal) (s : Startup) (site : Site) :
    Startup.Action → Startup → Site → Prop where
  | prepare (circuit : Option WorkerId) (contents : Contents)
      (stage : s.stage = .preparing circuit) :
      Advance now stop s site (.prepare contents) { s with stage := .spawning circuit }
        ((site.noteLaunch now (s.seat circuit)).put (s.seat circuit) contents)
  | reject (circuit : Option WorkerId) (left : Option Contents) (cause : Failure)
      (stage : s.stage = .preparing circuit) :
      Advance now stop s site (.reject left cause) (s.fail circuit cause)
        (left.elim (site.noteLaunch now (s.seat circuit))
          ((site.noteLaunch now (s.seat circuit)).put (s.seat circuit)))
  | spawn (circuit : Option WorkerId) (settle : Time) (stage : s.stage = .spawning circuit) :
      Advance now stop s site (.spawn settle)
        { s with stage := .settling circuit site.workers.length (now + settle) }
        (site.spawn (s.seat circuit))
  | refuse (circuit : Option WorkerId) (error : IoError) (stage : s.stage = .spawning circuit) :
      Advance now stop s site (.refuse error)
        (s.fail circuit (launchFailure (s.seat circuit) error.text)) site
  /-- The signal to stop comes before the spawn. -/
  | interruptSpawn (circuit : Option WorkerId) (stopping : stop.isOver = true)
      (stage : s.stage = .spawning circuit) :
      Advance now stop s site .interrupt (s.fail circuit .shuttingDown) site
  /-- The signal to stop comes while a process settles; nobody holds it any more. -/
  | interruptSettling (circuit : Option WorkerId) (w : WorkerId) (deadline : Time)
      (stopping : stop.isOver = true) (stage : s.stage = .settling circuit w deadline) :
      Advance now stop s site .interrupt (s.fail circuit .shuttingDown) (site.drop w)
  | settle (circuit : Option WorkerId) (w : WorkerId) (deadline : Time) (process : Process)
      (stage : s.stage = .settling circuit w deadline) (there : site.process? w = some process)
      (verdict : process.verdict? now deadline = some .settled) :
      Advance now stop s site .proceed { s with stage := settled circuit w } site
  | endEarly (circuit : Option WorkerId) (w : WorkerId) (deadline : Time) (process : Process)
      (outcome : Outcome) (stage : s.stage = .settling circuit w deadline)
      (there : site.process? w = some process)
      (verdict : process.verdict? now deadline = some (.failed outcome)) :
      Advance now stop s site .proceed
        (s.fail circuit (launchFailure (s.seat circuit) outcome.text)) (site.drop w)
  /-- A chore is done, or given up. -/
  | undo (chores rest : List Chore) (cause : Failure) (site' : Site) {a : Startup.Action}
      (stage : s.stage = .undoing chores cause) (part : Chore.Part site chores rest site')
      (chore : a = .proceed ∧ site'.forgone = site.forgone ∨ ∃ left, a = .forgo left) :
      Advance now stop s site a { s with stage := .undoing rest cause } site'
  | undone (cause : Failure) (stage : s.stage = .undoing [] cause) :
      Advance now stop s site .proceed { s with stage := .failed cause } site

section Completeness

variable {now : Time} {stop : StopSignal} {s s' : Startup} {site site' : Site}

private theorem advance_of_judge (h : s.judge now site = some (s', site')) :
    Startup.Advance now stop s site .proceed s' site' := by
  unfold Startup.judge at h
  split at h
  next circuit w deadline hstage =>
    split at h
    next hverdict =>
      obtain ⟨process, hthere, hv⟩ := Option.bind_eq_some_iff.mp hverdict
      cases h
      exact .settle circuit w deadline process hstage hthere hv
    next outcome hverdict =>
      obtain ⟨process, hthere, hv⟩ := Option.bind_eq_some_iff.mp hverdict
      cases h
      exact .endEarly circuit w deadline process outcome hstage hthere hv
    next => cases h
  next => cases h

/-- **Completeness**: every step of a start is an advance. -/
theorem Startup.advance_of_step {a : Startup.Action}
    (h : s.step now stop site a = some (s', site')) :
    Startup.Advance now stop s site a s' site' := by
  cases a with
  | prepare contents =>
    simp only [step] at h
    split at h
    next circuit hstage => cases h; exact .prepare circuit contents hstage
    next => cases h
  | reject left cause =>
    simp only [step] at h
    split at h
    next circuit hstage => cases h; exact .reject circuit left cause hstage
    next => cases h
  | spawn settle =>
    simp only [step] at h
    split at h
    next circuit hstage => cases h; exact .spawn circuit settle hstage
    next => cases h
  | refuse error =>
    simp only [step] at h
    split at h
    next circuit hstage => cases h; exact .refuse circuit error hstage
    next => cases h
  | interrupt =>
    simp only [step] at h
    split at h
    next hover =>
      split at h
      next circuit hstage => cases h; exact .interruptSpawn circuit hover hstage
      next circuit w deadline hstage =>
        cases h
        exact .interruptSettling circuit w deadline hover hstage
      next => cases h
    next => cases h
  | proceed =>
    simp only [step] at h
    split at h
    -- What a start does of itself: a verdict, the last chore, or a chore of the undoing.
    next => exact advance_of_judge h
    next cause hstage => cases h; exact .undone cause hstage
    next chores cause _ hstage =>
      obtain ⟨⟨rest, site₁⟩, hpart, hq⟩ := Option.map_eq_some_iff.mp h
      cases hq
      exact .undo chores rest cause site₁ hstage (Chore.part_of_step hpart)
        (.inl ⟨rfl, Chore.forgone_of_step hpart⟩)
    all_goals cases h
  | forgo left =>
    simp only [step] at h
    split at h
    next chores cause hstage =>
      obtain ⟨⟨rest, site₁⟩, hpart, hq⟩ := Option.map_eq_some_iff.mp h
      cases hq
      exact .undo chores rest cause site₁ hstage (Chore.part_of_forgo hpart) (.inr ⟨left, rfl⟩)
    next => cases h

end Completeness

/-! ## A pair by itself -/

/-- The steps of a pair by itself at a time, by an action, to a pair. -/
inductive PairLife.Transition (now : Time) (l : PairLife) : PairLife.Action → PairLife → Prop where
  | raise : Transition now l .raise { l with stop := l.stop.raise }
  | desert : Transition now l .desert { l with stop := l.stop.desert }
  | worker (w : WorkerId) (a : Process.Action) (site : Site)
      (step : l.site.processStep now w a = some site) :
      Transition now l (.worker w a) { l with site }
  | startup (a : Startup.Action) (s s' : Startup) (site : Site) (stage : l.stage = .starting s)
      (advance : s.Advance now l.stop l.site a s' site) :
      Transition now l (.startup a) { l with stage := .starting s', site }
  | succeed (s : Startup) (p : Pair) (stage : l.stage = .starting s) (pair : s.pair? = some p) :
      Transition now l .conclude (l.pass now (.serving p now) (.started p))
  | fail (s : Startup) (cause : Failure) (stage : l.stage = .starting s)
      (failure : s.failure? = some cause) :
      Transition now l .conclude (l.pass now (.failed cause) (.failed cause))
  | retire (reason : RetireReason) (p : Pair) (since : Time) (stage : l.stage = .serving p since)
      (due : p.mayRetire now l.stop l.lifetime since l.site reason = true) :
      Transition now l (.retire reason)
        (l.pass now (.leaving reason p.teardown) (.retired reason))
  | finish (reason : RetireReason) (stage : l.stage = .leaving reason []) :
      Transition now l .chore (l.pass now .tornDown .tornDown)
  /-- A chore is done, or given up. -/
  | chore (reason : RetireReason) (chores rest : List Chore) (site : Site) {a : PairLife.Action}
      (stage : l.stage = .leaving reason chores) (part : Chore.Part l.site chores rest site)
      (chore : a = .chore ∧ site.forgone = l.site.forgone ∨ ∃ left, a = .forgo left) :
      Transition now l a { l with stage := .leaving reason rest, site }

section Lives

variable {now : Time} {l l' : PairLife}

private theorem transition_of_conclude (h : l.step now .conclude = some l') :
    PairLife.Transition now l .conclude l' := by
  simp only [PairLife.step] at h
  split at h
  next s hstage =>
    split at h
    next p hpair => cases h; exact .succeed s p hstage hpair
    next cause _ hfailure => cases h; exact .fail s cause hstage hfailure
    next => cases h
  next => cases h

private theorem transition_of_chore (h : l.step now .chore = some l') :
    PairLife.Transition now l .chore l' := by
  simp only [PairLife.step] at h
  split at h
  next reason hstage => cases h; exact .finish reason hstage
  next reason chores _ hstage =>
    obtain ⟨⟨rest, site⟩, hpart, h⟩ := Option.map_eq_some_iff.mp h
    cases h
    exact .chore reason chores rest site hstage (Chore.part_of_step hpart)
      (.inl ⟨rfl, Chore.forgone_of_step hpart⟩)
  next => cases h

/-- **Completeness**: every step of a pair by itself is a transition. -/
theorem PairLife.transition_of_step {a : PairLife.Action} (h : l.step now a = some l') :
    PairLife.Transition now l a l' := by
  cases a with
  | raise => cases h; exact .raise
  | desert => cases h; exact .desert
  | worker w a =>
    obtain ⟨site, hstep, h⟩ := Option.map_eq_some_iff.mp h
    cases h
    exact .worker w a site hstep
  | startup a =>
    simp only [step] at h
    split at h
    next s hstage =>
      obtain ⟨⟨s', site⟩, hstep, h⟩ := Option.map_eq_some_iff.mp h
      cases h
      exact .startup a s s' site hstage (Startup.advance_of_step hstep)
    next => cases h
  | conclude => exact transition_of_conclude h
  | retire reason =>
    simp only [step] at h
    split at h
    next p since hstage =>
      split at h
      next hdue => cases h; exact .retire reason p since hstage hdue
      next => cases h
    next => cases h
  | chore => exact transition_of_chore h
  | forgo left =>
    simp only [step] at h
    split at h
    next reason chores hstage =>
      obtain ⟨⟨rest, site⟩, hpart, h⟩ := Option.map_eq_some_iff.mp h
      cases h
      exact .chore reason chores rest site hstage (Chore.part_of_forgo hpart) (.inr ⟨left, rfl⟩)
    next => cases h

end Lives

/-! ## Systems that obey -/

/-- Directories can be removed. -/
def Startup.Action.Obeyed : Startup.Action → Prop
  | forgo _ => False
  | _ => True

/-- The system does what it is asked for: programs can be killed, and directories be removed. -/
def PairLife.Action.Obeyed : PairLife.Action → Prop
  | worker _ a => a ≠ .resist
  | startup a => a.Obeyed
  | forgo _ => False
  | _ => True

/-- A start on a system that obeys gives up no removal. -/
theorem Startup.Advance.forgone_eq {now : Time} {stop : StopSignal} {s s' : Startup}
    {site site' : Site} {a : Startup.Action} (h : s.Advance now stop site a s' site')
    (obeyed : a.Obeyed) : site'.forgone = site.forgone := by
  cases h with
  | undo chores rest cause site' stage part chore =>
    rcases chore with ⟨-, hkept⟩ | ⟨left, rfl⟩
    · exact hkept
    · exact obeyed.elim
  | reject circuit left => cases left <;> rfl
  | _ => rfl

/-! ## Processes -/

/-- Something happens to a process: it is one that was started, and keeps its seat and whether
somebody holds it. -/
theorem Site.processStep_eq_some {now : Time} {w : WorkerId} {a : Process.Action} {s s' : Site}
    (h : s.processStep now w a = some s') :
    ∃ worker process, s.workers[w]? = some worker ∧
      worker.process.step worker.isHeld now a = some process ∧ s' = s.setProcess w process := by
  unfold processStep at h
  split at h
  next => cases h
  next =>
    obtain ⟨worker, hthere, h⟩ := Option.bind_eq_some_iff.mp h
    obtain ⟨process, hstep, h⟩ := Option.bind_eq_some_iff.mp h
    cases h
    exact ⟨worker, process, hthere, hstep, rfl⟩

/-- Termination is asked for by chores only. -/
theorem Site.ne_terminate_of_processStep {now : Time} {w : WorkerId} {a : Process.Action}
    {s s' : Site} (h : s.processStep now w a = some s') : a ≠ .terminate := by
  rintro rfl
  cases h

/-- What happens to a process leaves everything else as it is. -/
theorem Site.frame_of_processStep {now : Time} {w : WorkerId} {a : Process.Action} {s s' : Site}
    (h : s.processStep now w a = some s') :
    s'.folders = s.folders ∧ s'.launches = s.launches ∧
      s'.workers.length = s.workers.length := by
  obtain ⟨worker, process, -, -, rfl⟩ := processStep_eq_some h
  exact ⟨rfl, rfl, List.length_modify ..⟩

/-- What cannot happen to a process that was started cannot happen to it by itself. -/
theorem Site.process_step_eq_none {now : Time} {w : WorkerId} {a : Process.Action} {s : Site}
    {worker : Worker} (h : s.processStep now w a = none) (there : s.workers[w]? = some worker)
    (ha : a ≠ .terminate) : worker.process.step worker.isHeld now a = none := by
  unfold processStep at h
  split at h
  next => exact absurd rfl ha
  next =>
    rw [there, Option.bind_eq_bind, Option.bind_some] at h
    cases hstep : worker.process.step worker.isHeld now a with
    | none => rfl
    | some process => simp [hstep] at h

/-! ## Processes stay sound -/

/-- All processes from some number on are sound. -/
def Site.SoundFrom (first : WorkerId) (s : Site) : Prop :=
  ∀ w worker, first ≤ w → s.workers[w]? = some worker → worker.process.Sound

section Soundness

variable {first : WorkerId} {now : Time} {s s' : Site}

/-- One process may be replaced by another one that is sound, too. -/
theorem Site.SoundFrom.modify (h : s.SoundFrom first) (w : WorkerId) {f : Worker → Worker}
    (sound : ∀ worker, first ≤ w → s.workers[w]? = some worker → (f worker).process.Sound) :
    Site.SoundFrom first { s with workers := s.workers.modify w f } := by
  intro v worker hfirst hthere
  rw [List.getElem?_modify] at hthere
  obtain ⟨old, hold, rfl⟩ := Option.map_eq_some_iff.mp hthere
  split
  next hsame =>
    subst hsame
    exact sound old hfirst hold
  next => exact h v old hfirst hold

theorem Site.SoundFrom.setProcess (h : s.SoundFrom first) (w : WorkerId) {process : Process}
    (sound : first ≤ w → process.Sound) : (s.setProcess w process).SoundFrom first :=
  h.modify w fun _ hfirst _ => sound hfirst

theorem Site.SoundFrom.drop (h : s.SoundFrom first) (w : WorkerId) :
    (s.drop w).SoundFrom first := h.modify w (h w)

/-- A process that goes on stays sound. -/
theorem Site.SoundFrom.processStep (h : s.SoundFrom first) {w : WorkerId} {a : Process.Action}
    (hs : s.processStep now w a = some s') : s'.SoundFrom first := by
  obtain ⟨worker, process, hthere, hstep, rfl⟩ := Site.processStep_eq_some hs
  exact h.setProcess w fun hfirst => (h w worker hfirst hthere).step hstep

/-- A new process is sound. -/
theorem Site.SoundFrom.spawn (h : s.SoundFrom first) (seat : Seat) :
    (s.spawn seat).SoundFrom first := by
  intro w worker hfirst hthere
  rw [Site.spawn, List.getElem?_append] at hthere
  split at hthere
  next => exact h w worker hfirst hthere
  next =>
    rw [List.mem_singleton.mp (List.mem_of_getElem? hthere)]
    exact .fresh

theorem Chore.Part.soundFrom {chores rest : List Chore} (part : Chore.Part s chores rest s')
    (h : s.SoundFrom first) : s'.SoundFrom first := by
  cases part with
  | stop w process rest there =>
    obtain ⟨worker, hthere, rfl⟩ := Option.map_eq_some_iff.mp there
    exact h.setProcess w fun hfirst => (h w worker hfirst hthere).terminate
  | await w => exact h.drop w
  | skip | clear | forgo | release => exact h

/-- A start adds only sound processes to the site. -/
theorem Startup.Advance.soundFrom {stop : StopSignal} {t t' : Startup} {a : Startup.Action}
    (advance : t.Advance now stop s a t' s') (h : s.SoundFrom first) : s'.SoundFrom first := by
  cases advance with
  | spawn => exact h.spawn _
  | interruptSettling circuit w | endEarly circuit w => exact h.drop w
  | undo chores rest cause site' stage part => exact part.soundFrom h
  | reject circuit left => cases left <;> exact h
  | prepare | refuse | interruptSpawn | settle | undone => exact h

end Soundness

end OnionPool
