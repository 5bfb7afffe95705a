import OnionPool.Proofs.PairConfinement

/-!
# What the steps of a start do

A start goes through its two programs one after the other, or goes wrong and is undone. At each
stage its directories are known, and why it fails is known from the step at which that was found.

## Structure

- `Startup.Blames` lists what can go wrong; `Advance.cause_iff` says that a start fails for it.
- `Stage.Filed` says which directories there are at a stage, `Advance.filed` that the steps keep to
  it: nothing is left of those that were made when all is undone.
- `Site.Launches` says that a program is launched, and `Advance.seat_of_launches` that a start
  launches the one that is next.
-/

namespace OnionPool

/-! ## Why a start fails -/

namespace Startup

/-- What can go wrong in a step of a start, and the failure that it is. -/
inductive Blames (stop : StopSignal) (s : Startup) (site : Site) : Action → Failure → Prop where
  /-- The next program could not be prepared. -/
  | reject (left : Option Contents) (cause : Failure) :
      Blames stop s site (.reject left cause) cause
  /-- It could not be spawned. -/
  | refuse (circuit : Option WorkerId) (error : IoError) (stage : s.stage = .spawning circuit) :
      Blames stop s site (.refuse error) (launchFailure (s.seat circuit) error.text)
  /-- It ended in its settle window. -/
  | endEarly (circuit : Option WorkerId) (w : WorkerId) (deadline : Time) (process : Process)
      (outcome : Outcome) (stage : s.stage = .settling circuit w deadline)
      (there : site.process? w = some process) (ended : process.reaped? = some outcome) :
      Blames stop s site .proceed (launchFailure (s.seat circuit) outcome.text)
  /-- The signal to stop came before it had settled. -/
  | interrupt (stopping : stop.isOver = true) : Blames stop s site .interrupt .shuttingDown

/-- Why a start has failed, from the moment on at which it did. -/
def Stage.cause? : Stage → Option Failure
  | .undoing _ cause | .failed cause => some cause
  | .preparing _ | .spawning _ | .settling _ _ _ | .ready _ _ => none

section Causes

variable {now : Time} {stop : StopSignal} {s s' : Startup} {site site' : Site} {a : Action}

/-- A start keeps its ports. -/
theorem Advance.ports (h : s.Advance now stop site a s' site') :
    s'.circuitPort = s.circuitPort ∧ s'.forwarderPort = s.forwarderPort := by
  cases h <;> exact ⟨rfl, rfl⟩

/-- At most one thing goes wrong in a step. -/
theorem Blames.unique {cause other : Failure} (h : s.Blames stop site a cause)
    (h' : s.Blames stop site a other) : other = cause := by
  cases h with
  | reject | interrupt =>
    cases h'
    rfl
  | refuse circuit error stage =>
    cases h' with
    | refuse circuit' _ stage' =>
      cases stage.symm.trans stage'
      rfl
  | endEarly circuit w deadline process outcome stage there ended =>
    cases h' with
    | endEarly circuit' w' deadline' process' outcome' stage' there' ended' =>
      cases stage.symm.trans stage'
      cases there.symm.trans there'
      cases ended.symm.trans ended'
      rfl

/-- A start fails for what goes wrong, and for nothing else. -/
theorem Advance.cause_iff (h : s.Advance now stop site a s' site') (cause : Failure) :
    s'.stage.cause? = some cause ↔
      s.stage.cause? = some cause ∨ s.Blames stop site a cause := by
  -- Either nothing goes wrong in a step, or one thing does, and nothing went wrong before.
  have hfine : (∀ cause, ¬ s.Blames stop site a cause) → s'.stage.cause? = s.stage.cause? →
      (s'.stage.cause? = some cause ↔
        s.stage.cause? = some cause ∨ s.Blames stop site a cause) := by
    intro hnone hsame
    rw [hsame]
    exact ⟨.inl, fun h => h.resolve_right (hnone cause)⟩
  have hwrong : ∀ blamed, s'.stage.cause? = some blamed → s.stage.cause? = none →
      s.Blames stop site a blamed →
      (s'.stage.cause? = some cause ↔
        s.stage.cause? = some cause ∨ s.Blames stop site a cause) := by
    intro blamed hafter hbefore hblames
    rw [hafter, hbefore]
    constructor
    · rintro ⟨⟩
      exact .inr hblames
    · rintro (hnone | hother)
      · cases hnone
      · rw [hblames.unique hother]
  have hsettling : ∀ {blamed}, (∀ circuit w deadline, s.stage ≠ .settling circuit w deadline) →
      ¬ s.Blames stop site .proceed blamed := by
    intro blamed hstage hblames
    cases hblames with
    | endEarly circuit w deadline process outcome stage => exact hstage circuit w deadline stage
  cases h with
  | prepare circuit contents stage | spawn circuit settle stage =>
    refine hfine (fun _ h => ?_) (by rw [stage]; rfl)
    cases h
  | reject circuit left cause' stage =>
    exact hwrong cause' rfl (by rw [stage]; rfl) (.reject left cause')
  | refuse circuit error stage =>
    exact hwrong _ rfl (by rw [stage]; rfl) (.refuse circuit error stage)
  | interruptSpawn circuit stopping stage | interruptSettling circuit w deadline stopping stage =>
    exact hwrong _ rfl (by rw [stage]; rfl) (.interrupt stopping)
  | endEarly circuit w deadline process outcome stage there verdict =>
    have hended := Process.reaped_eq_of_failed verdict
    exact hwrong _ rfl (by rw [stage]; rfl)
      (.endEarly circuit w deadline process outcome stage there hended)
  | settle circuit w deadline process stage there verdict =>
    refine hfine (fun _ h => ?_) (by rw [stage]; cases circuit <;> rfl)
    cases h with
    | endEarly circuit' w' deadline' process' outcome stage' there' ended =>
      cases stage.symm.trans stage'
      cases there.symm.trans there'
      rw [(Process.alive_of_settled verdict).1] at ended
      cases ended
  | undo chores rest cause' site' stage part chore =>
    refine hfine (fun _ h => ?_) (by rw [stage]; rfl)
    -- No program settles any more that could end early.
    rcases chore with ⟨rfl, -⟩ | ⟨left, rfl⟩
    · exact hsettling (by simp [stage]) h
    · cases h
  | undone cause' stage =>
    refine hfine (fun _ h => ?_) (by rw [stage]; rfl)
    exact hsettling (by simp [stage]) h

end Causes

/-! ## The directories of a start -/

/-- The files that a step puts into a new directory, if it prepares a program. -/
def Action.contents? : Action → Option Contents
  | .prepare contents => some contents
  | .reject _ _ | .spawn _ | .refuse _ | .interrupt | .proceed | .forgo _ => none

/-- There are the directories that there were before, and in front of them some of those of a few
seats. -/
def Kept (before folders : List (Seat × Contents)) (seats : List Seat) : Prop :=
  ∃ made, folders = made ++ before ∧ ∀ d ∈ made, d.1 ∈ seats

/-- The directories at a stage of a start on two ports, if there were some before, and what the
programs were prepared with. -/
def Stage.Filed (c f : Port) (before : List (Seat × Contents)) (contents : List Contents)
    (folders : List (Seat × Contents)) : Stage → Prop
  | .preparing none => contents = [] ∧ folders = before
  | .spawning none | .settling none _ _ | .preparing (some _) =>
    ∃ x, contents = [x] ∧ folders = (⟨.circuit, c⟩, x) :: before
  | .spawning (some _) | .settling (some _) _ _ | .ready _ _ =>
    ∃ x y, contents = [x, y] ∧
      folders = (⟨.forwarder, f⟩, y) :: (⟨.circuit, c⟩, x) :: before
  | .undoing chores _ =>
    Kept before folders (Chore.seats chores) ∧
      ∀ seat ∈ Chore.seats chores, ∀ d ∈ before, d.1 ≠ seat
  | .failed _ => folders = before

section Directories

variable {before folders : List (Seat × Contents)} {seats : List Seat} {seat : Seat}
  {contents : List Contents} {c f : Port} {stage : Stage}

/-- To remove a directory that is not there leaves all of them. -/
theorem filter_of_fresh (fresh : ∀ d ∈ folders, d.1 ≠ seat) :
    folders.filter (·.1 ≠ seat) = folders :=
  List.filter_eq_self.mpr fun d hd => decide_eq_true (fresh d hd)

/-- A directory that was not there is put in front of all others. -/
theorem folders_put {site : Site} (fresh : ∀ d ∈ site.folders, d.1 ≠ seat) (x : Contents) :
    (site.put seat x).folders = (seat, x) :: site.folders :=
  congrArg ((seat, x) :: ·) (filter_of_fresh fresh)

/-- A directory of its own is removed from what was kept. -/
theorem Kept.clear (h : Kept before folders (seat :: seats)) (fresh : ∀ d ∈ before, d.1 ≠ seat) :
    Kept before (folders.filter (·.1 ≠ seat)) seats := by
  obtain ⟨made, rfl, hmade⟩ := h
  refine ⟨made.filter (·.1 ≠ seat), ?_, fun d hd => ?_⟩
  · rw [List.filter_append, filter_of_fresh fresh]
  · obtain ⟨hd, hne⟩ := List.mem_filter.mp hd
    exact (List.mem_cons.mp (hmade d hd)).resolve_left (of_decide_eq_true hne)

/-- A directory may be put in front, whether it was made before or not. -/
theorem Kept.put (h : Kept before folders seats) (hseat : seat ∈ seats)
    (fresh : ∀ d ∈ before, d.1 ≠ seat) (x : Contents) :
    Kept before ((seat, x) :: folders.filter (·.1 ≠ seat)) seats := by
  obtain ⟨made, rfl, hmade⟩ := h
  refine ⟨(seat, x) :: made.filter (·.1 ≠ seat), ?_, fun d hd => ?_⟩
  · rw [List.filter_append, filter_of_fresh fresh, List.cons_append]
  · rcases List.mem_cons.mp hd with rfl | hd
    · exact hseat
    · exact hmade d (List.mem_filter.mp hd).1

/-- Neither of the directories that a start makes was there before. -/
def Vacant (c f : Port) (before : List (Seat × Contents)) : Prop :=
  ∀ d ∈ before, d.1 ≠ ⟨.circuit, c⟩ ∧ d.1 ≠ ⟨.forwarder, f⟩

section Steps

variable {now : Time} {stop : StopSignal} {t t' : Startup} {site site' : Site} {a : Action}
  {chores rest : List Chore} {cause : Failure}

/-- Until both programs run there are no directories but those that a start is to remove. -/
theorem Stage.Filed.kept {circuit : Option WorkerId}
    (hstage : stage = .preparing circuit ∨ stage = .spawning circuit ∨
      ∃ w deadline, stage = .settling circuit w deadline)
    (h : stage.Filed c f before contents folders) :
    Kept before folders (Chore.seats (undo ⟨c, f, stage⟩ circuit)) := by
  cases circuit with
  | none =>
    rcases hstage with rfl | rfl | ⟨w, deadline, rfl⟩
    · obtain ⟨-, rfl⟩ := h
      exact ⟨[], rfl, by simp⟩
    all_goals
      obtain ⟨x, -, rfl⟩ := h
      exact ⟨[_], rfl, by simp [Chore.seats, undo, Chore.seat?]⟩
  | some w =>
    rcases hstage with rfl | rfl | ⟨w, deadline, rfl⟩
    · obtain ⟨x, -, rfl⟩ := h
      exact ⟨[_], rfl, by simp [Chore.seats, undo, Chore.seat?]⟩
    all_goals
      obtain ⟨x, y, -, rfl⟩ := h
      exact ⟨[_, _], rfl, by simp [Chore.seats, undo, Chore.seat?]⟩

/-- What a start is to remove was not there before. -/
theorem Vacant.undo (h : Vacant c f before) (circuit : Option WorkerId) :
    ∀ seat ∈ Chore.seats (Startup.undo ⟨c, f, stage⟩ circuit), ∀ d ∈ before, d.1 ≠ seat := by
  intro seat hseat d hd
  cases circuit with
  | none =>
    rw [List.mem_singleton.mp hseat]
    exact (h d hd).1
  | some w =>
    rcases List.mem_cons.mp hseat with rfl | hseat
    · exact (h d hd).2
    · rw [List.mem_singleton.mp hseat]
      exact (h d hd).1

/-- What is undone leaves the directories that were there before, as long as no removal is given
up. -/
theorem Stage.Filed.part
    (h : Stage.Filed c f before contents site.folders (.undoing chores cause))
    (part : Chore.Part site chores rest site') (obeyed : site'.forgone = site.forgone) :
    Stage.Filed c f before contents site'.folders (.undoing rest cause) := by
  obtain ⟨hkept, hfresh⟩ := h
  cases part with
  | stop | skip | await | release => exact ⟨hkept, hfresh⟩
  | clear seat rest =>
    exact ⟨hkept.clear (hfresh seat (List.mem_cons_self ..)),
      fun other hother => hfresh other (List.mem_cons_of_mem _ hother)⟩
  | forgo seat left rest => exact absurd obeyed.symm (List.cons_ne_self _ _).symm

/-- A start that goes on removes nothing. -/
theorem Advance.obeyed (h : Advance now stop t site a t' site') (goes : t'.stage.cause? = none) :
    a.Obeyed := by
  cases h with
  | undo => cases goes
  | _ => trivial

/-- The directories are as the stage of the start says. -/
theorem Advance.filed (vacant : Vacant c f before)
    (h : Advance now stop ⟨c, f, stage⟩ site a t site') (obeyed : a.Obeyed)
    (filed : stage.Filed c f before contents site.folders) :
    t.stage.Filed c f before (contents ++ a.contents?.toList) site'.folders := by
  have hnone : ∀ {stage' : Stage}, a.contents? = none →
      stage'.Filed c f before contents site'.folders →
      stage'.Filed c f before (contents ++ a.contents?.toList) site'.folders := by
    intro stage' ha hfiled
    rw [ha]
    simpa using hfiled
  have hforgone := h.forgone_eq obeyed
  cases h with
  | prepare circuit x hstage =>
    cases hstage
    cases circuit with
    | none =>
      obtain ⟨rfl, hfolders⟩ := filed
      refine ⟨x, rfl, ?_⟩
      rw [folders_put, Site.noteLaunch, hfolders]
      · rfl
      · exact fun d hd => (vacant d (hfolders ▸ hd)).1
    | some w =>
      obtain ⟨y, rfl, hfolders⟩ := filed
      refine ⟨y, x, rfl, ?_⟩
      rw [folders_put, Site.noteLaunch, hfolders]
      · rfl
      · intro d hd
        have hd : d ∈ (⟨.circuit, c⟩, y) :: before := hfolders ▸ hd
        rcases List.mem_cons.mp hd with rfl | hd
        · simp [seat]
        · exact (vacant d hd).2
  | reject circuit left cause hstage =>
    cases hstage
    have hkept := filed.kept (.inl rfl)
    refine hnone rfl ⟨?_, vacant.undo circuit⟩
    cases left with
    | none => exact hkept
    | some x =>
      have hseat : seat ⟨c, f, .preparing circuit⟩ circuit ∈
          Chore.seats (Startup.undo ⟨c, f, .preparing circuit⟩ circuit) := by
        cases circuit <;> exact List.mem_cons_self ..
      exact hkept.put hseat (vacant.undo circuit _ hseat) x
  | spawn circuit settle hstage =>
    cases hstage
    cases circuit <;> exact hnone rfl filed
  | refuse circuit error hstage | interruptSpawn circuit stopping hstage =>
    cases hstage
    exact hnone rfl ⟨filed.kept (.inr (.inl rfl)), vacant.undo circuit⟩
  | interruptSettling circuit w deadline stopping hstage
  | endEarly circuit w deadline process outcome hstage =>
    cases hstage
    exact hnone rfl ⟨filed.kept (.inr (.inr ⟨w, deadline, rfl⟩)), vacant.undo circuit⟩
  | settle circuit w deadline process hstage =>
    cases hstage
    cases circuit <;> exact hnone rfl filed
  | undo chores rest cause site' hstage part chore =>
    cases hstage
    have ha : a.contents? = none := by rcases chore with ⟨rfl, -⟩ | ⟨left, rfl⟩ <;> rfl
    exact hnone ha (Stage.Filed.part filed part hforgone)
  | undone cause hstage =>
    cases hstage
    -- No directory is left that would still be to be removed.
    obtain ⟨⟨made, hfolders, hmade⟩, -⟩ := filed
    refine hnone rfl ?_
    have hnil : made = [] := List.eq_nil_iff_forall_not_mem.mpr fun d hd => by cases hmade d hd
    rw [hnil] at hfolders
    exact hfolders

end Steps

end Directories

end Startup

/-! ## Launches -/

/-- A program is prepared for launch, or spawned. -/
def Site.Launches (seat : Seat) (site site' : Site) : Prop :=
  (∃ time, site'.launches = (time, seat) :: site.launches) ∨
    site'.workers = site.workers ++ [⟨seat, .fresh, true⟩]

section Launches

variable {seat : Seat} {now : Time} {site site' : Site}

/-- Without a note or a worker nothing was launched. -/
theorem Site.not_launches (launches : site'.launches = site.launches)
    (workers : site'.workers.length = site.workers.length) : ¬ site.Launches seat site' := by
  rintro (⟨time, hlaunches⟩ | hworkers)
  · exact List.cons_ne_self _ _ (hlaunches.symm.trans launches)
  · simp [hworkers] at workers

/-- No chore launches a program. -/
theorem Chore.Part.not_launches {chores rest : List Chore}
    (h : Chore.Part site chores rest site') : ¬ site.Launches seat site' := by
  cases h with
  | stop | await => exact Site.not_launches rfl (List.length_modify ..)
  | skip | clear | forgo | release => exact Site.not_launches rfl rfl

/-- A start launches the program that is next. -/
theorem Startup.Advance.seat_of_launches {stop : StopSignal} {s s' : Startup} {a : Startup.Action}
    (h : s.Advance now stop site a s' site') (launches : site.Launches seat site') :
    ∃ circuit, (s.stage = .preparing circuit ∨ s.stage = .spawning circuit) ∧
      s.seat circuit = seat := by
  -- A launch is told by its note, or by the worker that was spawned.
  have hprepared : ∀ circuit, site'.launches = (now, s.seat circuit) :: site.launches →
      site'.workers = site.workers → s.seat circuit = seat := by
    intro circuit hnoted hworkers
    rcases launches with ⟨time, hlaunches⟩ | hlaunches
    · exact congrArg Prod.snd (List.cons.inj (hnoted.symm.trans hlaunches)).1
    · simp [hworkers] at hlaunches
  cases h with
  | prepare circuit x hstage => exact ⟨circuit, .inl hstage, hprepared circuit rfl rfl⟩
  | reject circuit left cause hstage =>
    refine ⟨circuit, .inl hstage, ?_⟩
    cases left <;> exact hprepared circuit rfl rfl
  | spawn circuit settle hstage =>
    refine ⟨circuit, .inr hstage, ?_⟩
    rcases launches with ⟨time, hlaunches⟩ | hlaunches
    · exact absurd hlaunches.symm (List.cons_ne_self _ _)
    · have hsame := List.append_cancel_left hlaunches
      exact congrArg Worker.seat (List.cons.inj hsame).1
  | refuse | interruptSpawn | settle | undone => exact absurd launches (Site.not_launches rfl rfl)
  | interruptSettling | endEarly =>
    exact absurd launches (Site.not_launches rfl (List.length_modify ..))
  | undo chores rest cause _ hstage part => exact absurd launches part.not_launches

end Launches

end OnionPool
