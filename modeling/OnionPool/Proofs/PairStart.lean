import OnionPool.Proofs.Quietness
import OnionPool.Proofs.StartupSteps

/-!
# The start of a pair is all or nothing

A start leaves two programs running, each with its directory, or nothing at all. The forwarder is
not even prepared before the circuit has survived its settle window. Whatever goes wrong first is
why the start fails, and all that was done until then is undone before that is told, as long as
programs can be killed and directories be removed.

## Structure

- `PairLife.Begun` says how far a pair has come that starts, has started or has failed to, and
  `Stride` what the next step can be for it.
- `prepared`, `spawns`, `Survived` and `Fails` are what a run tells of its launches, and `Tried` is
  what is known of them at a stage.
- `Progress` puts all invariants of a start together, `Progress.of_trace` says that they hold in
  every run.
- `start_is_all_or_nothing` reads them off both ends of a start.
-/

namespace OnionPool

/-! ## Pairs that start -/

namespace PairLife

/-- A pair that starts on two ports, has started or has failed to, and at which stage of its start
it is. -/
inductive Begun (c f : Port) (l : PairLife) : Startup.Stage → Prop where
  | starting (stage : Startup.Stage) (starting : l.stage = .starting ⟨c, f, stage⟩) :
      Begun c f l stage
  | serving (circuit forwarder : WorkerId) (since : Time)
      (serving : l.stage = .serving ⟨c, f, circuit, forwarder⟩ since) :
      Begun c f l (.ready circuit forwarder)
  | failed (cause : Failure) (failed : l.stage = .failed cause) : Begun c f l (.failed cause)

/-- Whether a pair that has started was retired. -/
def isRetired (l : PairLife) : Bool :=
  match l.stage with
  | .leaving _ _ | .tornDown => true
  | .starting _ | .serving _ _ | .failed _ => false

/-- What a step can be for a pair that starts, has started or has failed to. -/
inductive Stride (c f : Port) (now : Time) (l : PairLife) (stage : Startup.Stage) :
    Action → PairLife → Prop where
  /-- The start goes on. -/
  | advance (a : Startup.Action) (stage' : Startup.Stage) (l' : PairLife)
      (begun : Begun c f l' stage') (starting : l.stage = .starting ⟨c, f, stage⟩)
      (step : Startup.Advance now l.stop ⟨c, f, stage⟩ l.site a ⟨c, f, stage'⟩ l'.site) :
      Stride c f now l stage (.startup a) l'
  /-- Something else happens, perhaps to a process. -/
  | rest (a : Action) (l' : PairLife) (begun : Begun c f l' stage) (other : ∀ b, a ≠ .startup b)
      (site : l'.site = l.site ∨ ∃ w b, l.site.processStep now w b = some l'.site) :
      Stride c f now l stage a l'
  | retire (a : Action) (l' : PairLife) (retired : l'.isRetired = true) :
      Stride c f now l stage a l'

section Strides

variable {c f : Port} {now : Time} {l l' : PairLife} {stage : Startup.Stage} {a : Action}

theorem Begun.of_stage (h : Begun c f l stage) (same : l'.stage = l.stage) :
    Begun c f l' stage := by
  cases h with
  | starting _ hstage => exact .starting stage (same.trans hstage)
  | serving circuit forwarder since hstage =>
    exact .serving circuit forwarder since (same.trans hstage)
  | failed cause hstage => exact .failed cause (same.trans hstage)

/-- A start that is under way is the one that has begun. -/
theorem Begun.stage_eq (h : Begun c f l stage) {s : Startup} (starting : l.stage = .starting s) :
    s = ⟨c, f, stage⟩ := by
  cases h with
  | starting _ hstage =>
    cases hstage.symm.trans starting
    rfl
  | serving _ _ _ hstage | failed _ hstage => cases hstage.symm.trans starting

/-- Every step is of one of these kinds. -/
theorem Begun.stride (h : Begun c f l stage) (t : Transition now l a l') :
    Stride c f now l stage a l' := by
  cases t with
  | raise | desert => exact .rest _ _ (h.of_stage rfl) (by simp) (.inl rfl)
  | worker w b site step => exact .rest _ _ (h.of_stage rfl) (by simp) (.inr ⟨w, b, step⟩)
  | startup b s s' site hstage advance =>
    cases h.stage_eq hstage
    obtain ⟨c', f', stage'⟩ := s'
    obtain ⟨hc, hf⟩ := advance.ports
    -- A start keeps its ports, so it is the one that was begun.
    cases hc
    cases hf
    exact .advance b stage' _ (.starting stage' rfl) hstage advance
  | succeed s p hstage pair =>
    cases h.stage_eq hstage
    cases stage with
    | ready circuit forwarder =>
      cases pair
      exact .rest _ _ (.serving circuit forwarder now rfl) (by simp) (.inl rfl)
    | _ => cases pair
  | fail s cause hstage failure =>
    cases h.stage_eq hstage
    cases stage with
    | failed cause' =>
      cases failure
      exact .rest _ _ (.failed cause rfl) (by simp) (.inl rfl)
    | _ => cases failure
  | retire reason p since hstage => exact .retire _ _ rfl
  | finish reason hstage => exact .retire _ _ rfl
  | chore reason chores rest site hstage => exact .retire _ _ rfl

/-- Who was retired stays so. -/
theorem Transition.isRetired (t : Transition now l a l') (retired : l.isRetired = true) :
    l'.isRetired = true := by
  unfold PairLife.isRetired at retired
  cases t with
  | raise | desert | worker => exact retired
  | startup _ _ _ _ hstage | succeed _ _ hstage | fail _ _ hstage | retire _ _ _ hstage =>
    rw [hstage] at retired
    cases retired
  | finish | chore => rfl

end Strides

/-! ## What a run tells of a start -/

/-- What programs were prepared with in a run. -/
def prepared (done : List (Time × Action)) : List Contents :=
  done.filterMap fun
    | (_, .startup a) => a.contents?
    | _ => none

/-- When programs were spawned in a run, and for how long they had to survive. -/
def spawns (done : List (Time × Action)) : List (Time × Time) :=
  done.filterMap fun
    | (time, .startup (.spawn settle)) => some (time, settle)
    | _ => none

/-- The circuit has survived its settle window in a run: it was the first program to be spawned, and
was not reaped when the time was over for which it had to survive. -/
def Survived (origin : PairLife) (done : List (Time × Action)) : Prop :=
  ∃ earlier now later l process spawnedAt settle,
    done = earlier ++ (now, .startup .proceed) :: later ∧ machine.replay earlier origin = some l ∧
    spawns earlier = [(spawnedAt, settle)] ∧ spawnedAt + settle ≤ now ∧
    l.site.process? origin.site.workers.length = some process ∧ process.reaped? = none

/-- A start goes wrong for some cause. -/
def Fails (cause : Failure) (l : PairLife) (a : Action) (_ : PairLife) : Prop :=
  ∃ s b, l.stage = .starting s ∧ a = .startup b ∧ s.Blames l.stop l.site b cause

/-- What has become of the launches at a stage: there was none before the circuit was spawned, and
it has survived when the forwarder is next. -/
def Tried (origin : PairLife) (done : List (Time × Action)) (site : Site) : Startup.Stage → Prop
  | .preparing none | .spawning none =>
    spawns done = [] ∧ site.workers.length = origin.site.workers.length
  | .settling none w deadline =>
    w = origin.site.workers.length ∧
      ∃ spawnedAt settle, spawns done = [(spawnedAt, settle)] ∧ deadline = spawnedAt + settle
  | .preparing (some _) | .spawning (some _) | .settling (some _) _ _ | .ready _ _ =>
    Survived origin done
  | .undoing _ _ | .failed _ => True

/-- Everything that is known of a pair that starts, has started or has failed to. -/
structure Progress (c f : Port) (origin : PairLife) (done : List (Time × Action)) (l : PairLife)
    (stage : Startup.Stage) : Prop where
  exchange : Exchange origin.site (Startup.debts ⟨c, f, .preparing none⟩) l.site
    (Startup.debts ⟨c, f, stage⟩)
  sound : l.site.SoundFrom origin.site.workers.length
  /-- As long as nothing has gone wrong, nothing is to be removed. -/
  filed : stage.cause? = none ∨ (∀ x ∈ done, x.2.Obeyed) →
    stage.Filed c f origin.site.folders (prepared done) l.site.folders
  tried : Tried origin done l.site stage
  blamed : ∀ cause, machine.Occurred (Fails cause) origin done ↔ stage.cause? = some cause

section Histories

variable {c f : Port} {origin l l' : PairLife} {done : List (Time × Action)} {now : Time}
  {a : Action} {stage : Startup.Stage} {site : Site}

/-- What a step of a start prepares comes last. -/
theorem prepared_startup (done : List (Time × Action)) (now : Time) (a : Startup.Action) :
    prepared (done ++ [(now, .startup a)]) = prepared done ++ a.contents?.toList := by
  unfold prepared
  rw [List.filterMap_append]
  cases h : a.contents? <;> simp [h]

theorem spawns_snoc (done : List (Time × Action)) (now : Time)
    (other : ∀ settle, a ≠ .startup (.spawn settle)) :
    spawns (done ++ [(now, a)]) = spawns done := by
  unfold spawns
  rw [List.filterMap_append]
  cases a with
  | startup a =>
    cases a with
    | spawn settle => exact absurd rfl (other settle)
    | _ => simp
  | _ => simp

/-- Nothing else prepares a program. -/
theorem prepared_other (done : List (Time × Action)) (now : Time)
    (other : ∀ b, a ≠ .startup b) : prepared (done ++ [(now, a)]) = prepared done := by
  unfold prepared
  rw [List.filterMap_append]
  cases a with
  | startup a => exact absurd rfl (other a)
  | _ => simp

/-- What has survived still has when more has happened. -/
theorem Survived.append (h : Survived origin done) (more : List (Time × Action)) :
    Survived origin (done ++ more) := by
  obtain ⟨earlier, now, later, l, process, spawnedAt, settle, rfl, hrest⟩ := h
  exact ⟨earlier, now, later ++ more, l, process, spawnedAt, settle, by simp, hrest⟩

/-- A step that spawns nothing leaves the launches as they are. -/
theorem Tried.keep (h : Tried origin done l.site stage)
    (other : ∀ settle, a ≠ .startup (.spawn settle))
    (workers : site.workers.length = l.site.workers.length) :
    Tried origin (done ++ [(now, a)]) site stage := by
  cases stage with
  | preparing circuit | spawning circuit =>
    cases circuit with
    | none =>
      obtain ⟨hspawns, hlength⟩ := h
      exact ⟨(spawns_snoc done now other).trans hspawns, workers.trans hlength⟩
    | some w => exact Survived.append h _
  | settling circuit w deadline =>
    cases circuit with
    | none =>
      obtain ⟨hw, spawnedAt, settle, hspawns, hdeadline⟩ := h
      exact ⟨hw, spawnedAt, settle, (spawns_snoc done now other).trans hspawns, hdeadline⟩
    | some w => exact Survived.append h _
  | ready circuit forwarder => exact Survived.append h _
  | undoing | failed => trivial

/-- The launches go on with the start. -/
theorem Tried.advance {b : Startup.Action} {t : Startup} (h : Tried origin done l.site stage)
    (hist : machine.replay done origin = some l)
    (step : Startup.Advance now l.stop ⟨c, f, stage⟩ l.site b t site) :
    Tried origin (done ++ [(now, .startup b)]) site t.stage := by
  cases step with
  | prepare circuit x hstage =>
    cases hstage
    -- Neither the processes nor what was spawned are touched by that.
    have hkeep : Tried origin (done ++ [(now, .startup (.prepare x))]) l.site
        (.preparing circuit) := h.keep (by simp) rfl
    cases circuit <;> exact hkeep
  | spawn circuit settle hstage =>
    cases hstage
    cases circuit with
    | none =>
      obtain ⟨hspawns, hlength⟩ := h
      refine ⟨hlength, now, settle, ?_, rfl⟩
      have hspawns' : spawns (done ++ [(now, .startup (.spawn settle))]) =
          spawns done ++ [(now, settle)] := List.filterMap_append
      rw [hspawns', hspawns]
      rfl
    | some w => exact Survived.append h _
  | settle circuit w deadline process hstage there verdict =>
    cases hstage
    cases circuit with
    | none =>
      obtain ⟨rfl, spawnedAt, settle, hspawns, rfl⟩ := h
      obtain ⟨halive, hdue⟩ := Process.alive_of_settled verdict
      exact ⟨done, now, [], l, process, spawnedAt, settle, rfl, hist, hspawns, hdue, there, halive⟩
    | some circuit => exact Survived.append h _
  | _ => trivial

end Histories

section Invariant

variable {c f : Port} {origin l l' : PairLife} {done : List (Time × Action)} {since now : Time}
  {a : Action} {stage : Startup.Stage}

theorem Progress.start (c f : Port) (origin : PairLife) :
    Progress c f origin [] origin (.preparing none) where
  exchange := .of_eq _ rfl
  sound w worker hw there := by
    exact absurd (List.getElem?_eq_some_iff.mp there).1 (Nat.not_lt.mpr hw)
  filed _ := ⟨rfl, rfl⟩
  tried := ⟨rfl, rfl⟩
  blamed cause := by
    constructor
    · exact fun h => absurd h Machine.not_occurred_nil
    · exact fun h => by cases h

/-- The invariant is kept by every step that does not retire the pair. -/
theorem Progress.step (h : Progress c f origin done l stage)
    (vacant : Startup.Vacant c f origin.site.folders)
    (backed : origin.site.Backs (Startup.debts ⟨c, f, .preparing none⟩))
    (hist : machine.replay done origin = some l) (hs : l.step now a = some l') (stride : Stride c f now l stage a l') :
    l'.isRetired = true ∨
      ∃ stage', Begun c f l' stage' ∧ Progress c f origin (done ++ [(now, a)]) l' stage' := by
  have hblamed : ∀ cause, machine.Occurred (Fails cause) origin (done ++ [(now, a)]) ↔
      stage.cause? = some cause ∨ Fails cause l a l' := by
    intro cause
    rw [Machine.occurred_snoc hist hs, h.blamed]
  cases stride with
  | retire _ _ retired => exact .inl retired
  | advance b stage' _ begun starting step =>
    refine .inr ⟨stage', begun, ?_⟩
    constructor
    case exchange => exact h.exchange.trans (step.exchange (h.exchange.backs backed))
    case sound => exact step.soundFrom h.sound
    case filed =>
      intro hcase
      rw [prepared_startup]
      rcases hcase with hgoes | hobeyed
      · -- What goes on now has gone on before.
        have hbefore : stage.cause? = none := by
          refine Option.eq_none_iff_forall_ne_some.mpr fun cause hcause => ?_
          rw [(step.cause_iff cause).mpr (.inl hcause)] at hgoes
          cases hgoes
        exact step.filed vacant (step.obeyed hgoes) (h.filed (.inl hbefore))
      · obtain ⟨hearlier, hnow⟩ := List.forall_mem_append.mp hobeyed
        exact step.filed vacant (hnow _ (List.mem_singleton_self _)) (h.filed (.inr hearlier))
    case tried => exact h.tried.advance hist step
    case blamed =>
      intro cause
      rw [hblamed, step.cause_iff]
      refine or_congr_right ⟨?_, fun hblames => ⟨_, b, starting, rfl, hblames⟩⟩
      rintro ⟨s, b', hs, hb, hblames⟩
      cases starting.symm.trans hs
      cases hb
      exact hblames
  | rest _ _ begun other site =>
    refine .inr ⟨stage, begun, ?_⟩
    -- If anything has happened to what pairs share, it has happened to a process.
    have hframe : Exchange l.site (Startup.debts ⟨c, f, stage⟩) l'.site
        (Startup.debts ⟨c, f, stage⟩) ∧ l'.site.SoundFrom origin.site.workers.length ∧
        l'.site.folders = l.site.folders ∧
        l'.site.workers.length = l.site.workers.length := by
      rcases site with hsame | ⟨w, b, hstep⟩
      · rw [hsame]
        exact ⟨.of_eq _ rfl, h.sound, rfl, rfl⟩
      · obtain ⟨hfolders, -, hlength⟩ := Site.frame_of_processStep hstep
        exact ⟨Site.exchange_of_processStep hstep _, h.sound.processStep hstep, hfolders, hlength⟩
    obtain ⟨hexchange, hsound, hfolders, hlength⟩ := hframe
    constructor
    case exchange => exact h.exchange.trans hexchange
    case sound => exact hsound
    case filed =>
      intro hcase
      rw [prepared_other done now other, hfolders]
      exact h.filed (hcase.imp_right fun hobeyed => (List.forall_mem_append.mp hobeyed).1)
    case tried => exact h.tried.keep (fun settle => other (.spawn settle)) hlength
    case blamed =>
      intro cause
      rw [hblamed]
      refine or_iff_left ?_
      rintro ⟨s, b, -, hb, -⟩
      exact other b hb

/-- What a whole run tells: the invariant holds until the pair is retired. -/
theorem Progress.of_trace
    (starting : origin.stage = .starting ⟨c, f, .preparing none⟩)
    (vacant : Startup.Vacant c f origin.site.folders)
    (backed : origin.site.Backs (Startup.debts ⟨c, f, .preparing none⟩))
    (h : machine.Trace allowed since origin done now l) :
    l.isRetired = true ∨ ∃ stage, Begun c f l stage ∧ Progress c f origin done l stage := by
  induction h with
  | refl => exact .inr ⟨_, .starting _ starting, .start c f origin⟩
  | act hbefore _ hs ih =>
    have t := transition_of_step hs
    rcases ih with hretired | ⟨stage, hbegun, hprogress⟩
    · exact .inl (t.isRetired hretired)
    · exact hprogress.step vacant backed hbefore.replay hs (hbegun.stride t)
  | tick _ _ ih => exact ih

/-! ## Both ends of a start -/

/-- Two ports that are leased can be given back. -/
theorem backs_of_leased {site : Site} (distinct : c ≠ f) (circuit : c ∈ site.ports.inUse)
    (forwarder : f ∈ site.ports.inUse) :
    site.Backs (Startup.debts ⟨c, f, .preparing none⟩) := by
  intro x
  show [f, c].count x ≤ site.ports.leased.count x
  by_cases hx : x ∈ [f, c]
  · have hleased : x ∈ site.ports.leased := by
      rcases List.mem_pair.mp hx with rfl | rfl
      · exact PortSet.mem_toList.mp forwarder
      · exact PortSet.mem_toList.mp circuit
    have honce : [f, c].Nodup := by simpa using distinct.symm
    rw [honce.count, if_pos hx]
    exact PortSet.count_pos_iff.mpr hleased
  · rw [List.count_eq_zero_of_not_mem hx]
    exact Nat.zero_le _

/-- A start that has failed has given both ports back, and no other one. -/
theorem Progress.released {cause : Failure} (h : Progress c f origin done l (.failed cause))
    (backed : origin.site.Backs (Startup.debts ⟨c, f, .preparing none⟩)) (x : Port) :
    x ∈ l.site.ports.inUse ↔ x ∈ origin.site.ports.inUse ∧ x ≠ c ∧ x ≠ f := by
  have hports : l.site.ports.leased.count x + [f, c].count x =
      origin.site.ports.leased.count x := h.exchange.ports x
  have hbacked : [f, c].count x ≤ origin.site.ports.leased.count x := backed x
  have hone := origin.site.ports.leased.count_le_one x
  simp only [PortAllocator.inUse, PortSet.mem_toList, ← PortSet.count_pos_iff]
  -- Counted with multiplicity, the exchange takes one lease of each of the two ports away.
  by_cases hx : x ∈ [f, c]
  · have hpos := List.count_pos_iff.mpr hx
    have hnot : ¬ (x ≠ c ∧ x ≠ f) := by
      rintro ⟨hc, hf⟩
      rcases List.mem_pair.mp hx with rfl | rfl
      · exact hf rfl
      · exact hc rfl
    constructor
    · omega
    · exact fun h => absurd h.2 hnot
  · have hzero := List.count_eq_zero_of_not_mem hx
    have hne : x ≠ c ∧ x ≠ f := by simpa [and_comm] using hx
    constructor
    · exact fun h => ⟨by omega, hne⟩
    · omega

/-- While both programs run the ports are leased that were leased before. -/
theorem Progress.leased {circuit forwarder : WorkerId}
    (h : Progress c f origin done l (.ready circuit forwarder)) (x : Port) :
    x ∈ l.site.ports.inUse ↔ x ∈ origin.site.ports.inUse := by
  have hports : l.site.ports.leased.count x + [f, c].count x =
      origin.site.ports.leased.count x + [f, c].count x := h.exchange.ports x
  simp only [PortAllocator.inUse, PortSet.mem_toList, ← PortSet.count_pos_iff]
  omega

/-- When nothing more happens after a start has failed, no process runs that it has launched. -/
theorem Progress.reaped_of_quiet {cause : Failure}
    (h : Progress c f origin done l (.failed cause)) (quiet : machine.Quiet now l) {w : WorkerId}
    {worker : Worker} (new : origin.site.workers.length ≤ w)
    (there : l.site.workers[w]? = some worker) : worker.process.reaped?.isSome = true := by
  have hunheld : worker.isHeld = false := by
    cases hheld : worker.isHeld with
    | false => rfl
    | true =>
      -- Nothing is owed any more, so whoever is still held was there before.
      rcases h.exchange.belongings (.process w) ⟨worker, there, hheld⟩ with
        howed | ⟨hbefore, -⟩ | hforgone
      · cases howed
      · obtain ⟨old, hold, -⟩ := hbefore
        exact absurd (List.getElem?_eq_some_iff.mp hold).1 (Nat.not_lt.mpr new)
      · exact hforgone.elim
  exact (h.sound w worker new there).reaped_of_quiet (fun b hb => quiet_worker quiet there hb)
    (.inl hunheld)

/-- Programs are launched by a start only. -/
theorem Transition.advance_of_launches {seat : Seat} (t : Transition now l a l')
    (launches : l.site.Launches seat l'.site) :
    ∃ b s s', l.stage = .starting s ∧ s.Advance now l.stop l.site b s' l'.site := by
  cases t with
  | startup b s s' site hstage advance => exact ⟨b, s, s', hstage, advance⟩
  | worker w b site step =>
    obtain ⟨-, hlaunches, hlength⟩ := Site.frame_of_processStep step
    exact absurd launches (Site.not_launches hlaunches hlength)
  | chore reason chores rest site hstage part => exact absurd launches part.not_launches
  | _ => exact absurd launches (Site.not_launches rfl rfl)

/-- The forwarder is launched by a start whose circuit has survived. -/
theorem Progress.survived (h : Progress c f origin done l stage) (begun : Begun c f l stage)
    (t : Transition now l a l') (launches : l.site.Launches ⟨.forwarder, f⟩ l'.site) :
    Survived origin done := by
  obtain ⟨b, s, s', hstage, hadvance⟩ := t.advance_of_launches launches
  cases begun.stage_eq hstage
  obtain ⟨circuit, hcircuit, hseat⟩ := hadvance.seat_of_launches launches
  have htried := h.tried
  cases circuit with
  | none => cases hseat
  | some w => rcases hcircuit with rfl | rfl <;> exact htried

/-- **A start is all or nothing.** It begins on two leased ports for which there are no directories.
If it fails, then on a system that obeys the directories are those that there were before; both
ports are idle again and no other one is, and when nothing more happens at that instant no process
runs that was launched; and the one thing that ever went wrong is why it has failed: the failure of
a program's launch, or the signal to stop. The forwarder is launched by a start only whose circuit has survived its settle
window. If it succeeds, then the directories are there as the programs were prepared with them, both
ports are still leased, and nothing went wrong. -/
theorem start_is_all_or_nothing
    (starting : origin.stage = .starting ⟨c, f, .preparing none⟩)
    (vacant : ∀ d ∈ origin.site.folders, d.1 ≠ ⟨.circuit, c⟩ ∧ d.1 ≠ ⟨.forwarder, f⟩)
    (distinct : c ≠ f)
    (leased : c ∈ origin.site.ports.inUse ∧ f ∈ origin.site.ports.inUse)
    (h : machine.Trace (fun _ => True) since origin done now l) :
    (∀ cause, l.stage = .failed cause →
      ((∀ x ∈ done, x.2.Obeyed) → l.site.folders = origin.site.folders) ∧
      (∀ x, x ∈ l.site.ports.inUse ↔ x ∈ origin.site.ports.inUse ∧ x ≠ c ∧ x ≠ f) ∧
      (machine.Quiet now l → ∀ w worker, origin.site.workers.length ≤ w →
        l.site.workers[w]? = some worker → worker.process.reaped?.isSome = true) ∧
      ∀ cause', machine.Occurred (Fails cause') origin done ↔ cause' = cause) ∧
    (∀ a l', l.step now a = some l' → l.site.Launches ⟨.forwarder, f⟩ l'.site →
      Survived origin done) ∧
    ∀ p time, l.stage = .serving p time →
      (∃ x y, prepared done = [x, y] ∧
        l.site.folders = (⟨.forwarder, f⟩, y) :: (⟨.circuit, c⟩, x) :: origin.site.folders) ∧
      c ∈ l.site.ports.inUse ∧ f ∈ l.site.ports.inUse ∧
      ∀ cause, ¬ machine.Occurred (Fails cause) origin done := by
  have hbacked := backs_of_leased distinct leased.1 leased.2
  rcases Progress.of_trace starting vacant hbacked h with hgone | ⟨stage, hbegun, hprogress⟩
  · -- A pair that was retired has neither failed to start, nor serves or starts any more.
    unfold isRetired at hgone
    refine ⟨fun cause hfailed => ?_, fun a l' hs hlaunches => ?_, fun p time hserving => ?_⟩
    · simp [hfailed] at hgone
    · obtain ⟨b, s, s', hstarting, -⟩ := (transition_of_step hs).advance_of_launches hlaunches
      simp [hstarting] at hgone
    · simp [hserving] at hgone
  · refine ⟨fun cause hfailed => ?_, fun a l' hs => ?_, fun p time hserving => ?_⟩
    · cases hbegun with
      | starting _ hstage | serving _ _ _ hstage => cases hstage.symm.trans hfailed
      | failed cause' hstage =>
        cases hstage.symm.trans hfailed
        refine ⟨fun obeyed => hprogress.filed (.inr obeyed), hprogress.released hbacked,
          fun quiet w worker => hprogress.reaped_of_quiet quiet, fun cause' => ?_⟩
        rw [hprogress.blamed]
        simp [Startup.Stage.cause?, eq_comm]
    · exact hprogress.survived hbegun (transition_of_step hs)
    · cases hbegun with
      | starting _ hstage | failed _ hstage => cases hstage.symm.trans hserving
      | serving circuit forwarder since' hstage =>
        refine ⟨hprogress.filed (.inl rfl), (hprogress.leased c).mpr leased.1,
          (hprogress.leased f).mpr leased.2, fun cause => ?_⟩
        rw [hprogress.blamed]
        simp [Startup.Stage.cause?]

/-- A pair is about to start on two ports of three that are leased, next to another pair. -/
def eager : PairLife where
  stage := .starting ⟨9000, 9001, .preparing none⟩
  site := {
    ports := ⟨⟨9000, 9010⟩, 9003, .ofList [9000, 9001, 9002]⟩
    folders := [(⟨.circuit, 9002⟩, [("torrc", "SocksPort 9002")])] }
  lifetime := 60000

/-- The circuit settles at once, and the forwarder is not spawned, so that the circuit is killed. -/
def refusal : List Action := [
  .startup (.prepare [("torrc", "SocksPort 9000")]), .startup (.spawn 0), .startup .proceed,
  .startup (.prepare [("config", "listen-address 127.0.0.1:9001")]),
  .startup (.refuse (.os .notFound)), .startup .proceed, .startup .proceed, .worker 0 (.look 0),
  .worker 0 (.send 0), .worker 0 .take, .worker 0 .collect, .worker 0 .drain, .worker 0 .publish,
  .worker 0 (.leave 0), .startup .proceed, .startup .proceed, .startup .proceed,
  .startup .proceed, .startup .proceed, .conclude]

def frustrated : PairLife := (machine.play 0 refusal eager).getD eager

theorem quiet_frustrated : machine.Quiet 0 frustrated := by
  refine quiet_of_failed rfl fun w hw b hb => ?_
  rw [List.mem_singleton.mp hw]
  exact Process.quiet_of_over rfl rfl hb

/-- Nothing is left of the pair: neither its directories nor its ports nor its circuit. -/
theorem start_is_all_or_nothing_for_refused :
    ∃ done cause, machine.Trace (fun _ => True) 0 eager done 0 frustrated ∧
      frustrated.stage = .failed cause ∧
      frustrated.site.folders = [(⟨.circuit, 9002⟩, [("torrc", "SocksPort 9002")])] ∧
      9000 ∉ frustrated.site.ports.inUse ∧ 9001 ∉ frustrated.site.ports.inUse ∧
      (∀ worker ∈ frustrated.site.workers, worker.process.reaped?.isSome = true) ∧
      machine.Occurred (Fails cause) eager done := by
  have hstart : machine.Trace (fun _ => True) 0 eager [] 0 eager := .refl
  have htrace := hstart.play (fun _ _ => trivial)
    (show machine.play 0 refusal eager = some frustrated by rfl)
  have hobeyed : ∀ x ∈ [] ++ refusal.map (0, ·), x.2.Obeyed := by
    simp [refusal, Action.Obeyed, Startup.Action.Obeyed]
  obtain ⟨hfailed, -⟩ := start_is_all_or_nothing (c := 9000) (f := 9001) rfl
    (by simp [eager]) (by decide) (by decide) htrace
  obtain ⟨hfolders, hports, hreaped, hcause⟩ := hfailed _ rfl
  refine ⟨_, _, htrace, rfl, hfolders hobeyed, fun h => ((hports _).mp h).2.1 rfl,
    fun h => ((hports _).mp h).2.2 rfl, fun worker hworker => ?_, (hcause _).mpr rfl⟩
  obtain ⟨w, hthere⟩ := List.mem_iff_getElem?.mp hworker
  exact hreaped quiet_frustrated w worker (Nat.zero_le w) hthere

end Invariant

end PairLife

end OnionPool
