import OnionPool.Proofs.PairDebts
import OnionPool.Proofs.ProcessTransition

/-!
# What a pair has for itself

A step of a pair touches no process and no directory but those that the pair owes, and the processes
that it makes are new. So what is owed by one pair only is left alone by all others; and a process
that its pair has not begun to stop is spared: nobody has asked for its end.

## Structure

- `Chore.processes` and `Chore.seats` list what some chores do away with, and `Chore.Seated` says
  that whoever is to remove a directory is to release its port, too.
- `Confined` says what a step of a pair leaves alone and what it makes. Parts of chores and steps of
  starts keep to it.
- `Startup.made` lists the directories that a start has made. `Chore.Part.furnished` and
  `Startup.Advance.furnished` say that they stay there.
-/

namespace OnionPool

/-! ## Processes and directories that are owed -/

namespace Chore

/-- The process that a chore stops. -/
def process? : Chore → Option WorkerId
  | stop w | await w _ => some w
  | clear _ | release _ => none

/-- The seat whose directory a chore removes. -/
def seat? : Chore → Option Seat
  | clear seat => some seat
  | stop _ | await _ _ | release _ => none

def processes (chores : List Chore) : List WorkerId := chores.filterMap process?

def seats (chores : List Chore) : List Seat := chores.filterMap seat?

/-- A directory is removed at most as often as its port is released. -/
def Seated (chores : List Chore) : Prop :=
  ∀ seat, (seats chores).count seat ≤ (ports chores).count seat.port

section Lists

variable {chores rest : List Chore} {seat : Seat} {w : WorkerId}

theorem mem_seats : seat ∈ seats chores ↔ .clear seat ∈ chores := by
  refine ⟨fun h => ?_, fun h => List.mem_filterMap.mpr ⟨_, h, rfl⟩⟩
  obtain ⟨c, hc, hseat⟩ := List.mem_filterMap.mp h
  cases c with
  | clear other => cases hseat; exact hc
  | stop | await | release => cases hseat

theorem mem_processes_of_stop (h : .stop w ∈ chores) : w ∈ processes chores :=
  List.mem_filterMap.mpr ⟨_, h, rfl⟩

theorem mem_seats_of_belongings (h : .folder seat ∈ belongings chores) : seat ∈ seats chores := by
  obtain ⟨c, hc, hfolder⟩ := List.mem_filterMap.mp h
  cases c with
  | clear other => cases hfolder; exact mem_seats.mpr hc
  | stop | await | release => cases hfolder

theorem mem_processes_of_belongings (h : .process w ∈ belongings chores) :
    w ∈ processes chores := by
  obtain ⟨c, hc, hprocess⟩ := List.mem_filterMap.mp h
  cases c with
  | stop | await => cases hprocess; exact List.mem_filterMap.mpr ⟨_, hc, rfl⟩
  | clear | release => cases hprocess

/-- Whoever is to remove a directory is to release its port. -/
theorem Seated.mem_ports (h : Seated chores) (hseat : seat ∈ seats chores) :
    seat.port ∈ ports chores :=
  List.count_pos_iff.mp (Nat.lt_of_lt_of_le (List.count_pos_iff.mpr hseat) (h seat))

/-- The ports of the seats are among those that are released. -/
theorem seated_of_sublist (h : ((seats chores).map (·.port)).Sublist (ports chores)) :
    Seated chores :=
  fun seat => Nat.le_trans List.count_le_count_map (h.count_le seat.port)

end Lists

end Chore

theorem Pair.seated_teardown (p : Pair) : Chore.Seated p.teardown :=
  Chore.seated_of_sublist (List.Sublist.refl [p.forwarderPort, p.circuitPort])

theorem Startup.seated_undo (s : Startup) (circuit : Option WorkerId) :
    Chore.Seated (s.undo circuit) := by
  cases circuit with
  | none => exact Chore.seated_of_sublist (List.sublist_append_right [s.forwarderPort] _)
  | some w =>
    exact Chore.seated_of_sublist (List.Sublist.refl [s.forwarderPort, s.circuitPort])

/-! ## Processes that are spared -/

/-- A process is held, nobody has asked for its end, and nobody has killed it. -/
structure Worker.IsSpared (worker : Worker) : Prop where
  held : worker.isHeld = true
  unasked : worker.process.calls = []
  unharmed : worker.process.Unharmed

/-- A process was started, and is spared. -/
def Site.Spares (s : Site) (w : WorkerId) : Prop :=
  ∃ worker, s.workers[w]? = some worker ∧ worker.IsSpared

/-- How many processes with a number were started. -/
def Site.started (s : Site) (w : Nat) : Nat := if w < s.workers.length then 1 else 0

section Sites

variable {s s' : Site} {w v : WorkerId} {seat other : Seat} {worker : Worker}

/-- A process that is spared stays so, as long as its pair leaves it alone. -/
theorem Worker.IsSpared.step {now : Time} {a : Process.Action} {process : Process}
    (h : worker.IsSpared) (ha : a ≠ .terminate)
    (hs : worker.process.step worker.isHeld now a = some process) (sound : worker.process.Sound) :
    Worker.IsSpared { worker with process } := by
  have htransition := Process.transition_of_step hs
  have hcalls : process.calls = [] := by
    rw [← List.length_eq_zero_iff, htransition.length_calls ha, h.unasked]
    rfl
  exact ⟨h.held, hcalls, h.unharmed.step sound h.unasked (.inr h.held) htransition⟩

theorem Site.started_of_length (h : s'.workers.length = s.workers.length) (w : Nat) :
    s'.started w = s.started w := by
  rw [started, started, h]

theorem Site.started_spawn (s : Site) (seat : Seat) (w : Nat) :
    (s.spawn seat).started w = s.started w + if s.workers.length = w then 1 else 0 := by
  simp only [started, spawn, List.length_append, List.length_singleton]
  split <;> split <;> split <;> omega

/-- The processes that are there are not touched by a spawn. -/
theorem Site.workers_spawn (seat : Seat) (there : s.workers[w]? = some worker) :
    (s.spawn seat).workers[w]? = some worker :=
  (List.getElem?_append_left (List.getElem?_eq_some_iff.mp there).1).trans there

theorem Site.workers_setProcess (process : Process) (hne : v ≠ w) :
    (s.setProcess v process).workers[w]? = s.workers[w]? :=
  List.getElem?_modify_ne _ _ hne

theorem Site.workers_drop (hne : v ≠ w) : (s.drop v).workers[w]? = s.workers[w]? :=
  List.getElem?_modify_ne _ _ hne

/-- A directory that was removed is gone. -/
theorem Site.hasFolder_clear_self : (s.clear seat).hasFolder seat = false := by
  simp [hasFolder, clear]

/-- No other directory is removed with it. -/
theorem Site.hasFolder_clear_of_ne (hne : seat ≠ other) :
    (s.clear seat).hasFolder other = s.hasFolder other := by
  simp only [hasFolder, clear, List.any_filter]
  -- A directory of the other seat passes the filter.
  refine congrArg (s.folders.any ·) (funext fun f => ?_)
  by_cases hf : f.1 = other
  · simp [hf, hne.symm]
  · simp [hf]

/-- Only the directory that is put there is new. -/
theorem Site.hasFolder_put (s : Site) (seat other : Seat) (contents : Contents) :
    (s.put seat contents).hasFolder other = (decide (seat = other) || s.hasFolder other) := by
  by_cases hsame : seat = other
  · simp [hasFolder, put, hsame]
  · have hclear := s.hasFolder_clear_of_ne hsame
    rw [← hclear]
    rfl

end Sites

/-! ## Confinement -/

/-- What a step of a pair leaves alone, and what it makes: only what is owed is touched, what is
owed newly is new, and what is still to be stopped is still spared. -/
structure Confined (s : Site) (debts : List Chore) (s' : Site) (debts' : List Chore) : Prop where
  folders : ∀ seat ∉ Chore.seats debts, s'.hasFolder seat = s.hasFolder seat
  workers : ∀ w ∉ Chore.processes debts, ∀ worker, s.workers[w]? = some worker →
    s'.workers[w]? = some worker
  fresh : ∀ w, (Chore.processes debts').count w + s.started w ≤
    (Chore.processes debts).count w + s'.started w
  spared : (∀ w, (Chore.processes debts).count w ≤ 1) → (∀ w, .stop w ∈ debts → s.Spares w) →
    ∀ w, .stop w ∈ debts' → s'.Spares w

section Steps

variable {s s' : Site} {debts debts' rest : List Chore} {w : WorkerId}

/-- Whoever touches no process, and owes none that was not owed before, has kept to it. -/
theorem Confined.of_workers (workers : s'.workers = s.workers)
    (folders : ∀ seat ∉ Chore.seats debts, s'.hasFolder seat = s.hasFolder seat)
    (owed : ∀ w, (Chore.processes debts').count w ≤ (Chore.processes debts).count w)
    (stops : ∀ w, .stop w ∈ debts' → .stop w ∈ debts) : Confined s debts s' debts' where
  folders := folders
  workers _ _ _ there := workers ▸ there
  fresh w := by
    rw [Site.started_of_length (congrArg List.length workers)]
    exact Nat.add_le_add_right (owed w) _
  spared _ h v hv := by
    obtain ⟨worker, hthere, hspared⟩ := h v (stops v hv)
    exact ⟨worker, workers ▸ hthere, hspared⟩

/-- One process that is owed is touched, and need not be spared any more. -/
theorem Confined.of_process {c : Chore} (hc : c.process? = some w)
    (others : ∀ v ≠ w, s'.workers[v]? = s.workers[v]?)
    (length : s'.workers.length = s.workers.length) (folders : s'.folders = s.folders)
    (owed : ∀ v, (Chore.processes debts').count v ≤ (Chore.processes (c :: rest)).count v)
    (stops : ∀ v, .stop v ∈ debts' → .stop v ∈ rest) : Confined s (c :: rest) s' debts' := by
  have hprocesses : Chore.processes (c :: rest) = w :: Chore.processes rest :=
    List.filterMap_cons_some hc
  constructor
  case folders => exact fun seat _ => congrArg (·.any (·.1 = seat)) folders
  case workers =>
    intro v hv worker hthere
    rw [hprocesses] at hv
    rw [others v (List.ne_of_not_mem_cons hv)]
    exact hthere
  case fresh =>
    intro v
    rw [Site.started_of_length length]
    exact Nat.add_le_add_right (owed v) _
  case spared =>
    intro once h v hv
    have hrest := stops v hv
    -- Another chore with the same process would owe it twice.
    have hne : v ≠ w := by
      rintro rfl
      have hpos := List.count_pos_iff.mpr (Chore.mem_processes_of_stop hrest)
      have hone := once v
      rw [hprocesses, List.count_cons_self] at hone
      omega
    obtain ⟨worker, hthere, hspared⟩ := h v (List.mem_cons_of_mem _ hrest)
    exact ⟨worker, (others v hne).trans hthere, hspared⟩

theorem Confined.refl (s : Site) (debts : List Chore) : Confined s debts s debts :=
  .of_workers rfl (fun _ _ => rfl) (fun _ => Nat.le_refl _) fun _ h => h

/-- Chores touch nothing but what they are for. -/
theorem Chore.Part.confined {chores : List Chore} (h : Chore.Part s chores rest s') :
    Confined s chores s' rest := by
  cases h with
  | stop w process rest =>
    refine .of_process rfl (fun v hv => Site.workers_setProcess _ hv.symm) (List.length_modify ..)
      rfl (fun _ => Nat.le_refl _) fun v hv => ?_
    -- The chore that comes instead awaits the end of the process.
    rcases List.mem_cons.mp hv with hv | hv
    · cases hv
    · exact hv
  | skip w rest =>
    refine .of_workers rfl (fun _ _ => rfl) (fun v => ?_) fun v => List.mem_cons_of_mem _
    exact (List.sublist_cons_self w (processes rest)).count_le v
  | await w call rest =>
    refine .of_process rfl (fun v hv => Site.workers_drop hv.symm) (List.length_modify ..) rfl
      (fun v => ?_) fun _ h => h
    exact (List.sublist_cons_self w (processes rest)).count_le v
  | clear seat rest =>
    refine .of_workers rfl (fun other hother => ?_) (fun _ => Nat.le_refl _)
      fun v => List.mem_cons_of_mem _
    exact Site.hasFolder_clear_of_ne (List.ne_of_not_mem_cons hother).symm
  | forgo seat left rest =>
    refine .of_workers rfl (fun other hother => ?_) (fun _ => Nat.le_refl _)
      fun v => List.mem_cons_of_mem _
    have hput := s.hasFolder_put seat other left
    rwa [decide_eq_false (List.ne_of_not_mem_cons hother).symm, Bool.false_or] at hput
  | release port rest =>
    exact .of_workers rfl (fun _ _ => rfl) (fun _ => Nat.le_refl _) fun v => List.mem_cons_of_mem _

/-- A new process is spared, and the others are as they were. -/
theorem confined_spawn (s : Site) (seat : Seat) (debts : List Chore) :
    Confined s debts (s.spawn seat) (.stop s.workers.length :: debts) := by
  constructor
  case folders => exact fun _ _ => rfl
  case workers => exact fun v _ worker hthere => Site.workers_spawn seat hthere
  case fresh =>
    intro v
    have hstarted := s.started_spawn seat v
    have hcount : (Chore.processes (.stop s.workers.length :: debts)).count v =
        (Chore.processes debts).count v + if s.workers.length = v then 1 else 0 := by
      show (s.workers.length :: Chore.processes debts).count v = _
      rw [List.count_cons]
      simp only [beq_iff_eq]
    rw [hcount, hstarted]
    omega
  case spared =>
    intro _ h v hv
    rcases List.mem_cons.mp hv with hv | hv
    · cases hv
      exact ⟨⟨seat, .fresh, true⟩, List.getElem?_concat_length, rfl, rfl, .fresh⟩
    · obtain ⟨worker, hthere, hspared⟩ := h v hv
      exact ⟨worker, Site.workers_spawn seat hthere, hspared⟩

/-- A start touches nothing but what it owes. -/
theorem Startup.Advance.confined {now : Time} {stop : StopSignal} {t t' : Startup}
    {a : Startup.Action} (h : t.Advance now stop s a t' s') :
    Confined s t.debts s' t'.debts := by
  obtain ⟨c, f, stage⟩ := t
  -- A start that makes a directory is to remove it already.
  have hput : ∀ (circuit : Option WorkerId) (contents : Contents) (site : Site) (seat : Seat),
      seat ∉ Chore.seats (Startup.undo ⟨c, f, stage⟩ circuit) →
      (site.put (Startup.seat ⟨c, f, stage⟩ circuit) contents).hasFolder seat =
        site.hasFolder seat := by
    intro circuit contents site seat hseat
    have hne : Startup.seat ⟨c, f, stage⟩ circuit ≠ seat := by
      rintro rfl
      cases circuit <;> exact hseat (List.mem_cons_self ..)
    rw [Site.hasFolder_put, decide_eq_false hne, Bool.false_or]
  cases h with
  | prepare circuit contents hstage =>
    cases hstage
    exact .of_workers rfl (fun seat hseat => hput circuit contents _ seat hseat)
      (fun _ => Nat.le_refl _) fun _ h => h
  | reject circuit left cause hstage =>
    cases hstage
    cases left with
    | none => exact .of_workers rfl (fun _ _ => rfl) (fun _ => Nat.le_refl _) fun _ h => h
    | some contents =>
      exact .of_workers rfl (fun seat hseat => hput circuit contents _ seat hseat)
        (fun _ => Nat.le_refl _) fun _ h => h
  | spawn circuit settle hstage => cases hstage; exact confined_spawn ..
  | refuse circuit error hstage => cases hstage; exact .refl ..
  | interruptSpawn circuit stopping hstage => cases hstage; exact .refl ..
  | interruptSettling circuit w deadline stopping hstage =>
    cases hstage
    refine .of_process rfl (fun v hv => Site.workers_drop hv.symm) (List.length_modify ..) rfl
      (fun v => ?_) fun _ h => h
    exact (List.sublist_cons_self w _).count_le v
  | settle circuit w deadline process hstage =>
    cases hstage
    cases circuit with
    | none =>
      refine .of_workers rfl (fun _ _ => rfl) (fun _ => Nat.le_refl _) fun v hv => ?_
      rcases List.mem_cons.mp hv with hv | hv
      · cases hv
      · exact hv
    | some circuit =>
      -- The circuit is stopped before the directory of the forwarder is removed, not after it.
      refine .of_workers rfl (fun _ _ => rfl) (fun _ => Nat.le_refl _) fun v hv => ?_
      exact (List.Perm.cons _ (.swap ..)).mem_iff.mp hv
  | endEarly circuit w deadline process outcome hstage =>
    cases hstage
    refine .of_process rfl (fun v hv => Site.workers_drop hv.symm) (List.length_modify ..) rfl
      (fun v => ?_) fun _ h => h
    exact (List.sublist_cons_self w _).count_le v
  | undo chores rest cause site' hstage part => cases hstage; exact part.confined
  | undone cause hstage => cases hstage; exact .refl ..

/-! ## Seats stay with their ports -/

theorem Chore.Part.seated {chores : List Chore} (h : Chore.Part s chores rest s')
    (orderly : Chore.Orderly chores) (seated : Chore.Seated chores) : Chore.Seated rest := by
  cases h with
  | stop | skip | await => exact seated
  | clear seat rest | forgo seat left rest =>
    have hfewer := (List.sublist_cons_self seat (seats rest)).count_le
    exact fun other => Nat.le_trans (hfewer other) (seated other)
  | release port rest =>
    -- Only releases are left.
    intro seat
    have hnone : seat ∉ seats rest := fun hseat => by cases orderly _ (mem_seats.mp hseat)
    rw [List.count_eq_zero_of_not_mem hnone]
    exact Nat.zero_le _

/-- What a start owes stays in its own seats. -/
theorem Startup.Advance.seated {now : Time} {stop : StopSignal} {t t' : Startup}
    {a : Startup.Action} (h : t.Advance now stop s a t' s') (orderly : Chore.Orderly t.debts)
    (seated : Chore.Seated t.debts) : Chore.Seated t'.debts := by
  cases h with
  | prepare circuit | reject circuit | refuse circuit | interruptSpawn circuit
  | interruptSettling circuit | endEarly circuit | spawn circuit =>
    exact Startup.seated_undo t circuit
  | settle circuit w =>
    cases circuit with
    | none => exact Startup.seated_undo t (some w)
    | some c => exact Pair.seated_teardown ⟨t.circuitPort, t.forwarderPort, c, w⟩
  | undo chores rest cause site' stage part =>
    have hdebts : t.debts = chores := by simp only [Startup.debts, stage]
    rw [hdebts] at orderly seated
    exact part.seated orderly seated
  | undone => exact fun _ => Nat.zero_le _

/-! ## Directories stay -/

/-- The seats whose directories a start has made. -/
def Startup.made (t : Startup) : List Seat :=
  match t.stage with
  | .preparing none | .undoing _ _ | .failed _ => []
  | .preparing (some _) | .spawning none | .settling none _ _ => [⟨.circuit, t.circuitPort⟩]
  | .spawning (some _) | .settling (some _) _ _ | .ready _ _ =>
    [⟨.forwarder, t.forwarderPort⟩, ⟨.circuit, t.circuitPort⟩]

/-- A start has made no directory but those that it is to remove. -/
theorem Startup.mem_seats_of_made {t : Startup} {seat : Seat} (h : seat ∈ t.made) :
    seat ∈ Chore.seats t.debts := by
  obtain ⟨c, f, stage⟩ := t
  cases stage with
  | preparing circuit =>
    -- The directory of the forwarder is about to be made, and is to be removed already.
    cases circuit with
    | none => cases h
    | some w => exact List.mem_cons_of_mem _ h
  | spawning circuit | settling circuit => cases circuit <;> exact h
  | undoing | failed => cases h
  | ready => exact h

/-- The directories that some chores are to remove are there until then. -/
theorem Chore.Part.furnished {chores : List Chore} (h : Chore.Part s chores rest s')
    (once : ∀ seat, (Chore.seats chores).count seat ≤ 1)
    (furnished : ∀ seat ∈ Chore.seats chores, s.hasFolder seat = true) :
    ∀ seat ∈ Chore.seats rest, s'.hasFolder seat = true := by
  cases h with
  | stop | skip | await | release => exact furnished
  | clear seat rest =>
    intro other hother
    have hne : seat ≠ other := by
      rintro rfl
      have hpos := List.count_pos_iff.mpr hother
      have hone : (seat :: seats rest).count seat ≤ 1 := once seat
      rw [List.count_cons_self] at hone
      omega
    rw [Site.hasFolder_clear_of_ne hne]
    exact furnished other (List.mem_cons_of_mem _ hother)
  | forgo seat left rest =>
    intro other hother
    have hput := s.hasFolder_put seat other left
    rwa [furnished other (List.mem_cons_of_mem _ hother), Bool.or_true] at hput

/-- The directories that a start has made are there. -/
theorem Startup.Advance.furnished {now : Time} {stop : StopSignal} {t t' : Startup}
    {a : Startup.Action} (h : t.Advance now stop s a t' s')
    (furnished : ∀ seat ∈ t.made, s.hasFolder seat = true) :
    ∀ seat ∈ t'.made, s'.hasFolder seat = true := by
  obtain ⟨c, f, stage⟩ := t
  cases h with
  | prepare circuit contents hstage =>
    cases hstage
    intro seat hseat
    rw [Site.hasFolder_put, Bool.or_eq_true, decide_eq_true_eq]
    -- The directory that is made now is the first one, and the others were made before.
    cases circuit with
    | none => exact .inl (List.mem_singleton.mp hseat).symm
    | some w => exact (List.mem_cons.mp hseat).imp Eq.symm (furnished seat)
  | spawn circuit settle hstage => cases hstage; cases circuit <;> exact furnished
  | settle circuit w deadline process hstage => cases hstage; cases circuit <;> exact furnished
  | reject | refuse | interruptSpawn | interruptSettling | endEarly | undo | undone =>
    intro seat hseat
    cases hseat

end Steps

end OnionPool
