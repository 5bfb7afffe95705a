import OnionPool.Proofs.TerminationCalls

/-!
# The verdict on a launch

A launch succeeds when its program was spawned and has lived through the settle window. It fails
when the program could not be spawned, or was reaped in the window, and it fails at that very
instant: that other programs keep the output open makes no difference. The failure names the
service and the port and says what has happened, and no program of the launch runs when it is known.

A program that ends in the last instant of its window may count as launched or not: two things
happen at once then, and either may come first.

## Structure

- `spawns`, `refusals` and `exits` tell from a run what has happened to the program.
- `Survived`, `Refused` and `EndedEarly` say which launches are to succeed, and which are to fail,
  with which failure and when.
- `Course` relates the stage of a launch to these; `Course.process` and `Judged.step` keep it.
- `launch_is_detected` reads the verdict off it.
-/

namespace OnionPool

namespace Process

variable {held : Bool} {now : Time} {p q : Process} {a : Action}

/-- How the program ends by itself, by an action. -/
def Action.ending? : Action → Option Outcome
  | finish status => some (.ofStatus status)
  | _ => none

/-- The program ends by itself at most once, while it is not reaped. -/
theorem Transition.ending_cases (h : Transition held now p a q) :
    (a.ending? = none ∧ q.ended = p.ended) ∨
      ∃ outcome, a.ending? = some outcome ∧ p.ended = none ∧ q.ended = some outcome ∧
        p.reaped? = none ∧ q.phase = p.phase := by
  cases h with
  | finish status alive notYet => exact .inr ⟨.ofStatus status, rfl, notYet, rfl, alive, rfl⟩
  | _ => exact .inl ⟨rfl, rfl⟩

/-- A program that has ended by itself is reaped when nothing more happens, unless it was killed. -/
theorem Unharmed.ended_of_quiet (h : Unharmed p)
    (quiet : ∀ a, a.isUrgent = true → p.step held now a = none) (alive : p.reaped? = none) :
    p.ended = none := by
  cases hphase : p.phase with
  | watching =>
    have hreap := quiet .reap rfl
    cases hended : p.ended with
    | none => rfl
    | some outcome => simp [Process.step, reap, hphase, hended] at hreap
  | killing caller =>
    have hkilling := h.notKilling
    simp [isKilling, hphase] at hkilling
  | draining | finished => simp [reaped?, hphase] at alive

end Process

namespace Supervision

/-! ## What a run tells of the program -/

/-- What is read off some actions, and when. -/
def told {α : Type} (reads : Action → Option α) (done : List (Time × Action)) : List (Time × α) :=
  done.filterMap fun x => (reads x.2).map (x.1, ·)

def Action.pid? : Action → Option Nat
  | spawn pid => some pid
  | _ => none

def Action.error? : Action → Option IoError
  | refuse error => some error
  | _ => none

def Action.ending? : Action → Option Outcome
  | process a => a.ending?
  | _ => none

/-- When the program was spawned, with its numbers. -/
def spawns (done : List (Time × Action)) : List (Time × Nat) := told Action.pid? done

/-- When it could not be spawned, and why. -/
def refusals (done : List (Time × Action)) : List (Time × IoError) := told Action.error? done

/-- When the program has ended by itself, and how. -/
def exits (done : List (Time × Action)) : List (Time × Outcome) := told Action.ending? done

/-- The program was spawned and has not ended before the end of its settle window, which is over. -/
def Survived (spec : LaunchSpec) (done : List (Time × Action)) (now : Time) : Prop :=
  ∃ since pid, spawns done = [(since, pid)] ∧ since + spec.settle.ticks ≤ now ∧
    ∀ x ∈ exits done, since + spec.settle.ticks ≤ x.1

/-- The program could not be spawned. -/
def Refused (spec : LaunchSpec) (done : List (Time × Action)) (failure : Failure) (at_ : Time) :
    Prop :=
  ∃ error : IoError, spawns done = [] ∧ refusals done = [(at_, error)] ∧
    failure = .launch spec.service spec.port error.text

/-- The program was spawned and has ended by itself in its settle window. -/
def EndedEarly (spec : LaunchSpec) (done : List (Time × Action)) (failure : Failure)
    (at_ : Time) : Prop :=
  ∃ since pid outcome, spawns done = [(since, pid)] ∧ exits done = [(at_, outcome)] ∧
    at_ ≤ since + spec.settle.ticks ∧ failure = .launch spec.service spec.port outcome.text

/-- The program has ended in the last instant of its settle window. -/
def EndedLast (spec : LaunchSpec) (done : List (Time × Action)) : Prop :=
  ∃ x ∈ spawns done, ∃ y ∈ exits done, y.1 = x.1 + spec.settle.ticks

def isLaunched (s : Supervision) : Bool :=
  match s.stage with
  | .running | .dropped => true
  | .spawning | .settling _ | .failed _ _ => false

section Tidings

variable {α : Type} {reads : Action → Option α} {done : List (Time × Action)} {now : Time}
  {a : Action}

/-- What the last step tells comes last. -/
theorem told_snoc :
    told reads (done ++ [(now, a)]) = told reads done ++ ((reads a).map (now, ·)).toList := by
  unfold told
  rw [List.filterMap_append]
  cases hreads : reads a <;> simp [hreads]

theorem spawns_snoc :
    spawns (done ++ [(now, a)]) = spawns done ++ (a.pid?.map (now, ·)).toList := told_snoc

theorem refusals_snoc :
    refusals (done ++ [(now, a)]) = refusals done ++ (a.error?.map (now, ·)).toList := told_snoc

theorem exits_snoc :
    exits (done ++ [(now, a)]) = exits done ++ (a.ending?.map (now, ·)).toList := told_snoc

end Tidings

/-! ## The course of a launch -/

/-- What has happened to the program of a launch when the launch has come to a stage. -/
inductive Course (spec : LaunchSpec) (now : Time) (p : Process) :
    List (Time × Nat) → List (Time × IoError) → List (Time × Outcome) → Stage → Prop where
  | spawning (fresh : p = .fresh) : Course spec now p [] [] [] .spawning
  | refused (error : IoError) (at_ : Time) (fresh : p = .fresh) :
      Course spec now p [] [(at_, error)] [] (.failed (spec.failure error.text) at_)
  /-- Whatever has happened to the program has happened just now, or there would be a verdict. -/
  | settling (since : Time) (pid : Nat) (ends : List (Time × Outcome))
      (early : now ≤ since + spec.settle.ticks) (justNow : ∀ x ∈ ends, x.1 = now)
      (reapedNow : ∀ time, p.reapedAt? = some time → time = now) (sound : p.Sound)
      (unharmed : p.Unharmed) (unasked : p.calls = []) :
      Course spec now p [(since, pid)] [] ends (.settling (since + spec.settle.ticks))
  | launched (since : Time) (pid : Nat) (ends : List (Time × Outcome)) (stage : Stage)
      (is : stage = .running ∨ stage = .dropped) (passed : since + spec.settle.ticks ≤ now)
      (late : ∀ x ∈ ends, since + spec.settle.ticks ≤ x.1) :
      Course spec now p [(since, pid)] [] ends stage
  | endedEarly (since : Time) (pid : Nat) (at_ : Time) (outcome : Outcome)
      (early : at_ ≤ since + spec.settle.ticks) (reaped : p.reaped? = some outcome)
      (reapedAt : p.reapedAt? = some at_) :
      Course spec now p [(since, pid)] [] [(at_, outcome)]
        (.failed (spec.failure outcome.text) at_)

section Courses

variable {spec : LaunchSpec} {held : Bool} {now : Time} {p q : Process} {a : Process.Action}
  {born : List (Time × Nat)} {refused : List (Time × IoError)} {ends : List (Time × Outcome)}
  {stage : Stage}

/-- Something happens to the process: it is held as long as there is no verdict, and nobody asks for
its termination then. -/
theorem Course.process (h : Course spec now p born refused ends stage)
    (hs : p.step held now a = some q)
    (spawned : stage ≠ .spawning ∧ (p.reaped? = none → ∀ failure at_, stage ≠ .failed failure at_))
    (kept : ∀ deadline, stage = .settling deadline → held = true ∧ a ≠ .terminate) :
    Course spec now q born refused (ends ++ (a.ending?.map (now, ·)).toList) stage := by
  have t := Process.transition_of_step hs
  have hnew : ∀ x ∈ (a.ending?.map (now, ·)).toList, x.1 = now := by
    intro x hx
    obtain ⟨outcome, -, rfl⟩ := Option.map_eq_some_iff.mp (Option.mem_toList.mp hx)
    rfl
  cases h with
  | spawning => exact absurd rfl spawned.1
  | refused error at_ fresh => exact absurd rfl (spawned.2 (by rw [fresh]; rfl) _ _)
  -- In the settle window nobody asks for the termination, so the program ends by itself.
  | settling since pid ends early justNow reapedNow sound unharmed unasked =>
    obtain ⟨hheld, hasked⟩ := kept _ rfl
    refine .settling since pid _ early (List.forall_mem_append.mpr ⟨justNow, hnew⟩) ?_
      (sound.step hs) ?_ ?_
    · intro time htime
      rcases t.reapedAt_cases with hsame | ⟨-, hnow⟩
      · exact reapedNow time (hsame ▸ htime)
      · exact Option.some.inj (htime.symm.trans hnow)
    · exact unharmed.step sound unasked (.inr hheld) t
    · exact List.length_eq_zero_iff.mp ((t.length_calls hasked).trans (by rw [unasked]; rfl))
  | launched since pid ends stage is passed late =>
    refine .launched since pid _ stage is passed (List.forall_mem_append.mpr ⟨late, ?_⟩)
    exact fun x hx => hnew x hx ▸ passed
  -- A program ends once, and the verdict was found at that moment.
  | endedEarly since pid at_ outcome early reaped reapedAt =>
    rcases t.ending_cases with ⟨hsilent, -⟩ | ⟨_, -, -, -, halive, -⟩
    · rw [hsilent]
      refine .endedEarly since pid at_ outcome early (t.reaped_eq reaped) ?_
      rcases t.reapedAt_cases with hsame | ⟨hnone, -⟩
      · exact hsame.trans reapedAt
      · cases reapedAt.symm.trans hnone
    · cases reaped.symm.trans halive

/-- The clock moves on: what has happened to a program in its window has led to a verdict before. -/
theorem Course.tick (h : Course spec now p born refused ends stage)
    (ended : ends.map (·.2) = p.ended.toList)
    (quiet : ∀ deadline, stage = .settling deadline → p.verdict? now deadline = none ∧
      ∀ a, a.isUrgent = true → p.step held now a = none) :
    Course spec (now + 1) p born refused ends stage := by
  cases h with
  | spawning fresh => exact .spawning fresh
  | refused error at_ fresh => exact .refused error at_ fresh
  | settling since pid ends early justNow reapedNow sound unharmed unasked =>
    -- Without a verdict the program is alive; and an end would have been reaped by now.
    obtain ⟨hverdict, hquiet⟩ := quiet _ rfl
    obtain ⟨halive, hearly⟩ := Process.alive_of_undecided hverdict
    have hends : ends = [] := by
      rw [unharmed.ended_of_quiet hquiet halive] at ended
      exact List.map_eq_nil_iff.mp ended
    refine .settling since pid ends hearly ?_ ?_ sound unharmed unasked
    · rw [hends]
      exact List.forall_mem_nil _
    · intro time htime
      have hreaped := p.isSome_reapedAt
      rw [htime, halive] at hreaped
      cases hreaped
  | launched since pid ends stage is passed late =>
    exact .launched since pid ends stage is (Nat.le_succ_of_le passed) late
  | endedEarly since pid at_ outcome early reaped reapedAt =>
    exact .endedEarly since pid at_ outcome early reaped reapedAt

/-- A launch about which nothing is known yet is judged: its program lives and has settled, or has
ended by itself. -/
theorem Course.judge {s : Supervision} (h : Course spec now s.process born refused ends s.stage)
    (ended : ends.map (·.2) = s.process.ended.toList) (truthful : s.process.Truthful)
    {deadline : Time} {verdict : Verdict} (stage : s.stage = .settling deadline)
    (found : s.process.verdict? now deadline = some verdict) :
    Course spec now s.process born refused ends
      (match verdict with
        | .settled => .running
        | .failed outcome => .failed (spec.failure outcome.text) now) := by
  rw [stage] at h
  cases h with
  | settling since pid ends early justNow reapedNow sound unharmed unasked =>
    cases verdict with
    | settled =>
      obtain ⟨-, hover⟩ := Process.alive_of_settled found
      exact .launched since pid ends .running (.inl rfl) hover fun x hx => justNow x hx ▸ hover
    | failed outcome =>
      have hreaped := Process.reaped_eq_of_failed found
      -- The outcome is its own, so the one end in the window is that of this instant.
      have hends : ends = [(now, outcome)] := by
        rw [(truthful outcome hreaped).resolve_left (unharmed.byItself outcome hreaped)] at ended
        obtain ⟨⟨time, outcome'⟩, rfl, houtcome⟩ := List.map_eq_singleton_iff.mp ended
        cases houtcome
        obtain rfl : time = now := justNow _ (List.mem_singleton_self _)
        rfl
      have hreapedAt : s.process.reapedAt? = some now := by
        have hsome := s.process.isSome_reapedAt
        rw [hreaped] at hsome
        obtain ⟨time, htime⟩ := Option.isSome_iff_exists.mp hsome
        rw [htime, reapedNow time htime]
      rw [hends]
      exact .endedEarly since pid now outcome early hreaped hreapedAt
  | launched since pid ends stage is => rcases is with is | is <;> cases is

end Courses

/-! ## The invariant -/

/-- What a run tells of the launch. -/
structure Judged (spec : LaunchSpec) (done : List (Time × Action)) (now : Time) (s : Supervision) :
    Prop where
  same : s.spec = spec
  ended : (exits done).map (·.2) = s.process.ended.toList
  course : Course spec now s.process (spawns done) (refusals done) (exits done) s.stage

section Invariant

variable {spec : LaunchSpec} {s s' : Supervision} {done : List (Time × Action)}
  {since now : Time} {a : Action} {failure : Failure} {at_ : Time}

theorem Judged.start (spec : LaunchSpec) (since : Time) : Judged spec [] since { spec } where
  same := rfl
  ended := rfl
  course := .spawning rfl

/-- The program cannot be killed, so it was launched before. -/
theorem Course.resist {p q : Process} {born : List (Time × Nat)} {refused : List (Time × IoError)}
    {ends : List (Time × Outcome)} {stage : Stage} {caller : Option CallId}
    (h : Course spec now p born refused ends stage) (phase : p.phase = .killing caller) :
    Course spec now q born refused ends stage := by
  cases h with
  | spawning fresh | refused error at_ fresh => simp [fresh, Process.fresh] at phase
  | settling since pid ends early justNow reapedNow sound unharmed =>
    have hkilling := unharmed.notKilling
    simp [Process.isKilling, phase] at hkilling
  | launched since pid ends stage is passed late =>
    exact .launched since pid ends stage is passed late
  | endedEarly since pid at_ outcome early reaped => simp [Process.reaped?, phase] at reaped

/-- The ends that are told are those that the process remembers. -/
theorem Transition.ended_of_step (t : Transition now s a s')
    (ended : (exits done).map (·.2) = s.process.ended.toList) :
    (exits (done ++ [(now, a)])).map (·.2) = s'.process.ended.toList := by
  have hresist : ∀ {process}, s.process.resist now = some process →
      process.ended = s.process.ended := by
    intro process hstep
    unfold Process.resist at hstep
    split at hstep <;> cases hstep <;> rfl
  rw [exits_snoc, List.map_append]
  cases t with
  | resist error process phase step | resistCall error i process phase step =>
    simpa [Action.ending?, hresist step] using ended
  | process b process spawned owned obeyed step =>
    rcases (Process.transition_of_step step).ending_cases with
      ⟨hsilent, hsame⟩ | ⟨outcome, houtcome, hnone, hends, -⟩
    · simpa [Action.ending?, hsilent, hsame] using ended
    · rw [hnone] at ended
      simpa [Action.ending?, houtcome, hends] using ended
  | _ => simpa [Action.ending?] using ended

/-- The course of a launch goes on by every step. -/
theorem Course.step {born : List (Time × Nat)} {refused : List (Time × IoError)}
    {ends : List (Time × Outcome)}
    (h : Course s.spec now s.process born refused ends s.stage)
    (ended : ends.map (·.2) = s.process.ended.toList) (truthful : s.process.Truthful)
    (t : Transition now s a s') :
    Course s.spec now s'.process (born ++ (a.pid?.map (now, ·)).toList)
      (refused ++ (a.error?.map (now, ·)).toList) (ends ++ (a.ending?.map (now, ·)).toList)
      s'.stage := by
  cases t with
  | spawn pid stage =>
    rw [stage] at h
    cases h with
    | spawning fresh =>
      simp only [fresh]
      exact .settling now pid [] (Nat.le_add_right ..) (List.forall_mem_nil _)
        (fun time htime => by cases htime) .fresh .fresh rfl
    | launched since pid ends stage is => rcases is with is | is <;> cases is
  | refuse error stage =>
    rw [stage] at h
    cases h with
    | spawning fresh => exact .refused error now fresh
    | launched since pid ends stage is => rcases is with is | is <;> cases is
  | settle deadline stage verdict | endEarly deadline outcome stage verdict =>
    simpa [Action.pid?, Action.error?, Action.ending?] using h.judge ended truthful stage verdict
  | drop stage =>
    rw [stage] at h
    cases h with
    | launched since pid ends stage is passed late =>
      simpa [Action.pid?, Action.error?, Action.ending?] using
        Course.launched since pid ends .dropped (.inr rfl) passed late
  | subscribe | observe => simpa [Action.pid?, Action.error?, Action.ending?] using h
  | resist error process phase | resistCall error i process phase =>
    simpa [Action.pid?, Action.error?, Action.ending?] using h.resist phase
  | process b process spawned owned obeyed step =>
    have hspawned : s.stage ≠ .spawning ∧
        (s.process.reaped? = none → ∀ failure at_, s.stage ≠ .failed failure at_) := by
      constructor
      · intro hstage
        simp [isSpawned, hstage] at spawned
      · intro halive failure at_ hstage
        simp [isSpawned, hstage, halive] at spawned
    -- A launch holds its program until there is a verdict; only whoever owns it may terminate.
    have hkept : ∀ deadline, s.stage = .settling deadline →
        s.isHeld = true ∧ b ≠ .terminate := by
      intro deadline hstage
      refine ⟨by simp only [isHeld, hstage], fun hasked => ?_⟩
      cases hstage.symm.trans (owned hasked)
    simpa [Action.pid?, Action.error?, Action.ending?] using h.process step hspawned hkept

/-- The invariant is kept by every step. -/
theorem Judged.step (h : Judged spec done now s) (truthful : s.process.Truthful)
    (hs : s.step now a = some s') : Judged spec (done ++ [(now, a)]) now s' := by
  obtain ⟨rfl, hended, hcourse⟩ := h
  have t := transition_of_step hs
  constructor
  case same => cases t <;> rfl
  case ended => exact t.ended_of_step hended
  case course =>
    rw [spawns_snoc, refusals_snoc, exits_snoc]
    exact hcourse.step hended truthful t

/-- There is nothing to judge as long as there is no verdict. -/
theorem judge_eq_none_iff {deadline : Time} (stage : s.stage = .settling deadline) :
    s.judge now = none ↔ s.process.verdict? now deadline = none := by
  simp only [judge, stage]
  cases hverdict : s.process.verdict? now deadline with
  | none => simp only
  | some verdict => cases verdict <;> simp only [reduceCtorEq]

/-- The invariant is kept when the clock moves on. -/
theorem Judged.tick (h : Judged spec done now s) (quiet : machine.Quiet now s) :
    Judged spec done (now + 1) s where
  same := h.same
  ended := h.ended
  course := by
    have hquiet : ∀ deadline, s.stage = .settling deadline →
        s.process.verdict? now deadline = none ∧
          ∀ b, b.isUrgent = true → s.process.step s.isHeld now b = none := by
      intro deadline hstage
      exact ⟨(judge_eq_none_iff hstage).mp (quiet .judge rfl),
        fun b hb => process_of_quiet (by simp only [isSpawned, hstage]) quiet hb⟩
    exact h.course.tick h.ended hquiet

/-- The invariant holds in every run. -/
theorem Judged.of_trace (h : machine.Trace (fun _ => True) since { spec } done now s) :
    Judged spec done now s := by
  induction h with
  | refl => exact .start spec since
  | act hbefore _ hs ih => exact ih.step (Witnessed.of_trace hbefore).truthful hs
  | tick _ quiet ih => exact ih.tick quiet

/-! ## The verdict -/

/-- Who was launched has survived. -/
theorem Judged.survived (h : Judged spec done now s) (launched : s.isLaunched = true) :
    Survived spec done now := by
  have hcourse := h.course
  unfold isLaunched at launched
  unfold Survived
  generalize s.stage = stage at *
  generalize spawns done = born at *
  generalize refusals done = refused at *
  generalize exits done = ends at *
  cases hcourse with
  | spawning | refused | settling | endedEarly => cases launched
  | launched since pid ends stage is passed late => exact ⟨since, pid, rfl, passed, late⟩

/-- What has failed was refused or has ended early, and nothing of it runs any more. -/
theorem Judged.failed (h : Judged spec done now s) (failed : s.stage = .failed failure at_) :
    (Refused spec done failure at_ ∨ EndedEarly spec done failure at_) ∧
      (spawns done = [] ∨ s.process.reapedAt? = some at_) := by
  have hcourse := h.course
  rw [failed] at hcourse
  unfold Refused EndedEarly
  generalize spawns done = born at *
  generalize refusals done = refused at *
  generalize exits done = ends at *
  cases hcourse with
  | refused error at_ => exact ⟨.inl ⟨error, rfl, rfl, rfl⟩, .inl rfl⟩
  | launched since pid ends stage is => rcases is with is | is <;> cases is
  | endedEarly since pid at_ outcome early reaped reapedAt =>
    exact ⟨.inr ⟨since, pid, outcome, rfl, rfl, early, rfl⟩, .inr reapedAt⟩

/-- When nothing more happens, a launch without a verdict has time left, and its program has not
ended. -/
theorem Judged.settling_of_quiet (h : Judged spec done now s) (quiet : machine.Quiet now s)
    {deadline : Time} (stage : s.stage = .settling deadline) :
    exits done = [] ∧ ∃ since pid, spawns done = [(since, pid)] ∧ refusals done = [] ∧
      now < since + spec.settle.ticks := by
  have hnow := h.course
  have hnext := (h.tick quiet).course
  rw [stage] at hnow hnext
  generalize spawns done = born at *
  generalize refusals done = refused at *
  generalize exits done = ends at *
  cases hnow with
  | settling since pid ends early justNow =>
    cases hnext with
    | settling _ _ _ early' justNow' =>
      refine ⟨List.eq_nil_iff_forall_not_mem.mpr fun x hx => ?_, since, pid, rfl, rfl, early'⟩
      exact absurd ((justNow x hx).symm.trans (justNow' x hx)) (Nat.succ_ne_self now).symm
    | launched _ _ _ _ is => rcases is with is | is <;> cases is
  | launched since pid ends stage is => rcases is with is | is <;> cases is

/-- A launch fails in one way only. -/
theorem failure_unique {failure' : Failure} {at' : Time}
    (h : Refused spec done failure at_ ∨ EndedEarly spec done failure at_)
    (h' : Refused spec done failure' at' ∨ EndedEarly spec done failure' at') :
    failure = failure' ∧ at_ = at' := by
  rcases h with ⟨error, hunborn, hrefused, rfl⟩ | ⟨since, pid, outcome, hborn, hends, -, rfl⟩
  · rcases h' with ⟨error', -, hrefused', rfl⟩ | ⟨since, pid, outcome, hborn, -⟩
    · cases hrefused.symm.trans hrefused'
      exact ⟨rfl, rfl⟩
    · cases hunborn.symm.trans hborn
  · rcases h' with ⟨error, hunborn, -⟩ | ⟨since', pid', outcome', -, hends', -, rfl⟩
    · cases hunborn.symm.trans hborn
    · cases hends.symm.trans hends'
      exact ⟨rfl, rfl⟩

/-- A program that has survived has not ended early, unless it has ended last. -/
theorem Survived.not_failed (h : Survived spec done now) (notLast : ¬ EndedLast spec done) :
    ¬ (Refused spec done failure at_ ∨ EndedEarly spec done failure at_) := by
  obtain ⟨since, pid, hborn, -, hlate⟩ := h
  rintro (⟨error, hunborn, -⟩ | ⟨since', pid', outcome, hborn', hends, hearly, -⟩)
  · cases hunborn.symm.trans hborn
  · cases hborn.symm.trans hborn'
    have hmem : (at_, outcome) ∈ exits done := hends ▸ List.mem_singleton_self _
    have hedge : at_ = since + spec.settle.ticks := Nat.le_antisymm hearly (hlate _ hmem)
    exact notLast ⟨(since, pid), hborn ▸ List.mem_singleton_self _, (at_, outcome), hmem, hedge⟩

/-- When nothing more happens, who has survived was launched. -/
theorem Judged.launched_of_quiet (h : Judged spec done now s) (quiet : machine.Quiet now s)
    (notLast : ¬ EndedLast spec done) (survived : Survived spec done now) :
    s.isLaunched = true := by
  cases hstage : s.stage with
  | spawning =>
    have hspawn : s.step now (.spawn 0) = none := quiet (.spawn 0) rfl
    simp [Supervision.step, hstage] at hspawn
  | settling deadline =>
    obtain ⟨-, since, pid, hborn, -, hearly⟩ := h.settling_of_quiet quiet hstage
    obtain ⟨since', pid', hborn', hover, -⟩ := survived
    cases hborn.symm.trans hborn'
    exact absurd hover (Nat.not_le.mpr hearly)
  | running | dropped => simp only [isLaunched, hstage]
  | failed failure at_ => exact absurd (h.failed hstage).1 (survived.not_failed notLast)

/-- When nothing more happens, the launch of who was refused or has ended early has failed. -/
theorem Judged.failed_of_quiet (h : Judged spec done now s) (quiet : machine.Quiet now s)
    (notLast : ¬ EndedLast spec done)
    (failed : Refused spec done failure at_ ∨ EndedEarly spec done failure at_) :
    s.stage = .failed failure at_ := by
  cases hstage : s.stage with
  | spawning =>
    have hspawn : s.step now (.spawn 0) = none := quiet (.spawn 0) rfl
    simp [Supervision.step, hstage] at hspawn
  | settling deadline =>
    obtain ⟨hends, since, pid, hborn, -, -⟩ := h.settling_of_quiet quiet hstage
    rcases failed with ⟨error, hunborn, -⟩ | ⟨since', pid', outcome, -, hends', -⟩
    · cases hunborn.symm.trans hborn
    · cases hends.symm.trans hends'
  | running | dropped =>
    have hsurvived := h.survived (by simp only [isLaunched, hstage])
    exact absurd failed (hsurvived.not_failed notLast)
  | failed failure' at' =>
    obtain ⟨rfl, rfl⟩ := failure_unique (h.failed hstage).1 failed
    rfl

/-- **Launches are judged by the reap.** Whatever happens to a program, and however long others keep
its output open: who was launched was spawned and has survived the settle window. A launch that has
failed was refused, or its program has ended in the window; it has failed at that very instant, with
the service, the port and the reason in its failure, and no program of it runs from then on. When
nothing more happens, these are the only reasons for either, unless the program has ended in the
last instant of its window: who has survived was launched, and all others have failed. -/
theorem launch_is_detected (h : machine.Trace (fun _ => True) since { spec } done now s) :
    (s.isLaunched = true → Survived spec done now) ∧
    (∀ failure at_, s.stage = .failed failure at_ →
      (Refused spec done failure at_ ∨ EndedEarly spec done failure at_) ∧
        (spawns done = [] ∨ s.process.reapedAt? = some at_)) ∧
    (machine.Quiet now s → ¬ EndedLast spec done →
      (s.isLaunched = true ↔ Survived spec done now) ∧
        ∀ failure at_, s.stage = .failed failure at_ ↔
          Refused spec done failure at_ ∨ EndedEarly spec done failure at_) := by
  have hjudged := Judged.of_trace h
  refine ⟨hjudged.survived, fun failure at_ => hjudged.failed, fun quiet notLast => ⟨?_, ?_⟩⟩
  · exact ⟨hjudged.survived, hjudged.launched_of_quiet quiet notLast⟩
  · intro failure at_
    exact ⟨fun failed => (hjudged.failed failed).1, hjudged.failed_of_quiet quiet notLast⟩

/-- A program with a settle window of a hundred milliseconds. -/
def patientSpec : LaunchSpec :=
  { service := "tor", port := 9050, program := "tor", settle := .ofMillis 100 }

def settling : Supervision :=
  (machine.play 0 [.spawn 1] { spec := patientSpec }).getD { spec := patientSpec }

theorem quiet_settling {now : Time} (early : now < 100) : machine.Quiet now settling := by
  refine quiet_of_parts (by decide) ?_ (fun a ha => ?_) (fun x hx => by cases hx)
  · rw [judge_eq_none_iff (show settling.stage = .settling 100 from rfl)]
    show (if 100 ≤ now then some Verdict.settled else none) = none
    exact if_neg (Nat.not_le.mpr early)
  · exact Process.quiet_of_unasked rfl rfl rfl rfl ha

/-- It ends after five milliseconds, and its output stays open. -/
def collapse : List Action := [.process (.finish (some (.code 3))), .process .reap, .judge]

def collapsed : Supervision := (machine.play 5 collapse settling).getD settling

theorem quiet_collapsed : machine.Quiet 5 collapsed :=
  quiet_of_parts (by decide) rfl
    (fun _ ha => Process.quiet_of_draining rfl rfl (by decide) (List.forall_mem_nil _) ha)
    fun x hx => by cases hx

/-- The launch has failed at once, long before the window was over and the output was read. -/
theorem launch_is_detected_at_once :
    ∃ done, machine.Trace (fun _ => True) 0 { spec := patientSpec } done 5 collapsed ∧
      machine.Quiet 5 collapsed ∧ ¬ EndedLast patientSpec done ∧
      collapsed.process.drainedAt = none ∧
      EndedEarly patientSpec done (.launch "tor" 9050 "exit status: 3") 5 ∧
      collapsed.stage = .failed (.launch "tor" 9050 "exit status: 3") 5 := by
  have hstart : machine.Trace (fun _ => True) 0 { spec := patientSpec } [] 0
      { spec := patientSpec } := .refl
  have hsettling := hstart.play (fun _ _ => trivial)
    (show machine.play 0 [.spawn 1] { spec := patientSpec } = some settling by rfl)
  have hwaited := hsettling.wait (Nat.zero_le 5) fun time hlt =>
    quiet_settling (hlt.trans (by decide))
  have htrace := hwaited.play (fun _ _ => trivial)
    (show machine.play 5 collapse settling = some collapsed by rfl)
  obtain ⟨-, -, hverdict⟩ := launch_is_detected htrace
  have hearly : EndedEarly patientSpec
      ([] ++ [.spawn 1].map (0, ·) ++ collapse.map (5, ·)) (.launch "tor" 9050 "exit status: 3")
      5 := ⟨0, 1, .exited (.code 3), rfl, rfl, by decide, rfl⟩
  have hnotLast : ¬ EndedLast patientSpec ([] ++ [.spawn 1].map (0, ·) ++ collapse.map (5, ·)) := by
    rintro ⟨x, hx, y, hy, heq⟩
    cases List.mem_singleton.mp (show x ∈ [(0, 1)] from hx)
    cases List.mem_singleton.mp (show y ∈ [(5, Outcome.exited (.code 3))] from hy)
    exact absurd heq (by decide)
  exact ⟨_, htrace, quiet_collapsed, hnotLast, rfl, hearly,
    ((hverdict quiet_collapsed hnotLast).2 _ _).mpr (.inr hearly)⟩

end Invariant

end Supervision

end OnionPool
