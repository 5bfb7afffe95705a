import OnionPool.Proofs.PairStep
import OnionPool.Proofs.PortLease

/-!
# What a pair owes

At any moment a pair owes some chores: those that would give back all it has taken. It leases ports,
makes directories and spawns processes, and with each of them it owes one chore more; it does a
chore, and owes one less. So what is there can be accounted for by what is owed.

## Structure

- `Chore.ports` and `Chore.belongings` say what some chores give back, `Startup.debts` what a start
  owes.
- `Exchange` relates what is there and what is owed before a step to both after it. Parts of chores
  and steps of starts are exchanges.
- `Chore.Orderly` says that ports are released last, so that a pair holds both of them or is done.
-/

namespace OnionPool

/-! ## Debts -/

/-- What a pair leaves behind, besides its ports, unless it is given back. -/
inductive Belonging where
  | folder (seat : Seat)
  | process (w : WorkerId)

/-- Whether something is there: a directory, or a process that somebody holds. -/
def Site.Has (s : Site) : Belonging → Prop
  | .folder seat => s.hasFolder seat = true
  | .process w => ∃ worker, s.workers[w]? = some worker ∧ worker.isHeld = true

namespace Chore

/-- The port that a chore gives back. -/
def port? : Chore → Option Port
  | release port => some port
  | stop _ | await _ _ | clear _ => none

/-- The process or directory that a chore does away with. -/
def belonging? : Chore → Option Belonging
  | stop w | await w _ => some (.process w)
  | clear seat => some (.folder seat)
  | release _ => none

def ports (chores : List Chore) : List Port := chores.filterMap port?

def belongings (chores : List Chore) : List Belonging := chores.filterMap belonging?

/-- Nothing follows a release but releases, and before the first of them two are left. -/
def Orderly : List Chore → Prop
  | [] => True
  | release _ :: rest => ∀ c ∈ rest, c.port?.isSome
  | stop _ :: rest | await _ _ :: rest | clear _ :: rest => (ports rest).length = 2 ∧ Orderly rest

end Chore

/-- The chores that would undo what a start has done. -/
def Startup.debts (s : Startup) : List Chore :=
  match s.stage with
  | .preparing circuit | .spawning circuit => s.undo circuit
  | .settling circuit w _ => .stop w :: s.undo circuit
  | .undoing chores _ => chores
  | .failed _ => []
  | .ready circuit forwarder =>
    Pair.teardown ⟨s.circuitPort, s.forwarderPort, circuit, forwarder⟩

/-! ## Exchanges -/

/-- Every port that is owed is leased. -/
def Site.Backs (s : Site) (debts : List Chore) : Prop :=
  ∀ x, (Chore.ports debts).count x ≤ s.ports.leased.count x

/-- Something may be there though nobody owes it: a directory that could not be removed. -/
def Site.Forgoes (s : Site) : Belonging → Prop
  | .folder seat => seat ∈ s.forgone
  | .process _ => False

/-- What is there and what is owed, before and after a step: ports are leased and released in step
with the debts, and what is there afterwards is owed, or was there before and is owed by others, or
could not be removed. -/
structure Exchange (s : Site) (debts : List Chore) (s' : Site) (debts' : List Chore) : Prop where
  ports : ∀ x, s'.ports.leased.count x + (Chore.ports debts).count x =
    s.ports.leased.count x + (Chore.ports debts').count x
  belongings : ∀ b, s'.Has b → b ∈ Chore.belongings debts' ∨
    (s.Has b ∧ b ∉ Chore.belongings debts) ∨ s'.Forgoes b
  forgone : s.forgone ⊆ s'.forgone

section Exchanges

variable {s s' : Site} {debts debts' : List Chore}

/-- What could not be removed stays among what could not be. -/
theorem Site.Forgoes.mono {b : Belonging} (forgone : s.forgone ⊆ s'.forgone) (h : s.Forgoes b) :
    s'.Forgoes b := by
  cases b with
  | folder seat => exact forgone h
  | process w => exact h

/-- Whoever could remove all directories has forgone nothing. -/
theorem Site.not_forgoes (h : s.forgone = []) (b : Belonging) : ¬ s.Forgoes b := by
  cases b with
  | folder seat => simp [Forgoes, h]
  | process w => exact id

/-- Whoever touches no port, and owes no belonging less than before, exchanges nothing but what is
new. -/
theorem Exchange.of_new (hports : s'.ports = s.ports) (hforgone : s'.forgone = s.forgone)
    (howed : ∀ x, (Chore.ports debts').count x = (Chore.ports debts).count x)
    (hnew : ∀ b, s'.Has b → s.Has b ∨ b ∈ Chore.belongings debts')
    (hkept : ∀ b ∈ Chore.belongings debts, b ∈ Chore.belongings debts') :
    Exchange s debts s' debts' where
  ports x := by rw [hports, howed]
  belongings b hb := by
    by_cases hold : b ∈ Chore.belongings debts
    · exact .inl (hkept b hold)
    · rcases hnew b hb with hb | hb
      · exact .inr (.inl ⟨hb, hold⟩)
      · exact .inl hb
  forgone := hforgone ▸ List.Subset.refl _

/-- As long as nothing happens to what pairs share, debts may be rearranged. -/
theorem Exchange.of_same
    (howed : ∀ x, (Chore.ports debts').count x = (Chore.ports debts).count x)
    (hkept : ∀ b ∈ Chore.belongings debts, b ∈ Chore.belongings debts') :
    Exchange s debts s debts' := .of_new rfl rfl howed (fun _ hb => .inl hb) hkept

/-- A chore that releases no port is done: what it was to do away with is gone, or is left there. -/
theorem Exchange.of_done {c : Chore} (rest : List Chore) (hport : c.port? = none)
    (hports : s'.ports = s.ports) (hforgone : s.forgone ⊆ s'.forgone)
    (hgone : ∀ b, s'.Has b → s.Has b ∧ (c.belonging? = some b → s'.Forgoes b)) :
    Exchange s (c :: rest) s' rest where
  ports x := by rw [hports, Chore.ports, List.filterMap_cons_none hport]; rfl
  belongings b hb := by
    obtain ⟨hb, hkept⟩ := hgone b hb
    -- A later chore may be to do away with the same belonging; then it is still owed.
    by_cases hrest : b ∈ Chore.belongings rest
    · exact .inl hrest
    · by_cases hc : c.belonging? = some b
      · exact .inr (.inr (hkept hc))
      · refine .inr (.inl ⟨hb, fun hmem => ?_⟩)
        obtain ⟨d, hd, hdb⟩ := List.mem_filterMap.mp hmem
        rcases List.mem_cons.mp hd with rfl | hd
        · exact hc hdb
        · exact hrest (List.mem_filterMap.mpr ⟨d, hd, hdb⟩)
  forgone := hforgone

/-- A chore that releases no port is done, and what it was to do away with is gone. -/
theorem Exchange.of_gone {c : Chore} (rest : List Chore) (hport : c.port? = none)
    (hports : s'.ports = s.ports) (hforgone : s.forgone ⊆ s'.forgone)
    (hgone : ∀ b, s'.Has b → s.Has b ∧ c.belonging? ≠ some b) : Exchange s (c :: rest) s' rest :=
  .of_done rest hport hports hforgone fun b hb =>
    ⟨(hgone b hb).1, fun hc => absurd hc (hgone b hb).2⟩

/-- Nothing is exchanged as long as the debts are the same. -/
theorem Exchange.of_eq (s : Site) (h : debts' = debts) : Exchange s debts s debts' := by
  subst h
  exact .of_same (fun _ => rfl) fun _ hb => hb

/-- What is exchanged in two steps is exchanged in both of them together. -/
theorem Exchange.trans {s'' : Site} {debts'' : List Chore} (h : Exchange s debts s' debts')
    (h' : Exchange s' debts' s'' debts'') : Exchange s debts s'' debts'' where
  ports x := by
    have hfirst := h.ports x
    have hsecond := h'.ports x
    omega
  belongings b hb := by
    rcases h'.belongings b hb with hb | ⟨hb, hnot⟩ | hb
    · exact .inl hb
    · exact .inr (((h.belongings b hb).resolve_left hnot).imp_right (.mono h'.forgone))
    · exact .inr (.inr hb)
  forgone := List.Subset.trans h.forgone h'.forgone

/-- An exchange leaves every debt backed by a lease. -/
theorem Exchange.backs (h : Exchange s debts s' debts') (backed : s.Backs debts) :
    s'.Backs debts' := by
  intro x
  have hports := h.ports x
  have hbacked := backed x
  omega

@[simp] theorem Site.has_noteLaunch {now : Time} {seat : Seat} {b : Belonging} :
    (s.noteLaunch now seat).Has b ↔ s.Has b := by
  cases b <;> exact Iff.rfl

theorem Site.has_put {seat : Seat} {contents : Contents} {b : Belonging}
    (h : (s.put seat contents).Has b) : s.Has b ∨ b = .folder seat := by
  cases b with
  | process w => exact .inl h
  | folder other =>
    simp only [Has, hasFolder, put, List.any_cons, Bool.or_eq_true, decide_eq_true_eq,
      List.any_filter] at h
    -- The directory of this seat is new, and those of other seats were there before.
    rcases h with rfl | h
    · exact .inr rfl
    · obtain ⟨f, hf, hsame⟩ := List.any_eq_true.mp h
      have hother : decide (f.1 = other) = true := (Bool.and_eq_true _ _ ▸ hsame).2
      exact .inl (List.any_eq_true.mpr ⟨f, hf, hother⟩)

theorem Site.has_clear {seat : Seat} {b : Belonging} (h : (s.clear seat).Has b) :
    s.Has b ∧ some (Belonging.folder seat) ≠ some b := by
  cases b with
  | process w => exact ⟨h, fun hb => by cases hb⟩
  | folder other =>
    simp only [Has, hasFolder, clear, List.any_filter] at h
    obtain ⟨f, hf, hsame⟩ := List.any_eq_true.mp h
    simp only [Bool.and_eq_true, decide_eq_true_eq] at hsame
    refine ⟨List.any_eq_true.mpr ⟨f, hf, decide_eq_true hsame.2⟩, fun hb => ?_⟩
    cases hb
    exact hsame.1 hsame.2

theorem Site.has_spawn {seat : Seat} {b : Belonging} (h : (s.spawn seat).Has b) :
    s.Has b ∨ b = .process s.workers.length := by
  cases b with
  | folder other => exact .inl h
  | process w =>
    obtain ⟨worker, hthere, hheld⟩ := h
    rw [spawn, List.getElem?_append] at hthere
    -- A process that is held is one of the old ones, or the one that was just spawned.
    split at hthere
    next => exact .inl ⟨worker, hthere, hheld⟩
    next hge =>
      obtain ⟨hlt, -⟩ := List.getElem?_eq_some_iff.mp hthere
      rw [List.length_singleton] at hlt
      have hle : w ≤ s.workers.length := Nat.sub_eq_zero_iff_le.mp (Nat.lt_one_iff.mp hlt)
      exact .inr (congrArg _ (Nat.le_antisymm hle (Nat.not_lt.mp hge)))

theorem Site.has_setProcess {w : WorkerId} {process : Process} {b : Belonging} :
    (s.setProcess w process).Has b ↔ s.Has b := by
  cases b with
  | folder seat => exact Iff.rfl
  | process other =>
    simp only [Has, setProcess, List.getElem?_modify]
    cases s.workers[other]? with
    | none => simp
    | some worker => by_cases hw : w = other <;> simp [hw]

theorem Site.has_drop {w : WorkerId} {b : Belonging} (h : (s.drop w).Has b) :
    s.Has b ∧ some (Belonging.process w) ≠ some b := by
  cases b with
  | folder seat => exact ⟨h, fun hb => by cases hb⟩
  | process other =>
    obtain ⟨worker, hthere, hheld⟩ := h
    simp only [drop, List.getElem?_modify] at hthere
    obtain ⟨old, hold, hnew⟩ := Option.map_eq_some_iff.mp hthere
    -- Nobody holds the process that was dropped; the others are as they were.
    by_cases hw : w = other
    · rw [if_pos hw] at hnew
      cases hnew
      cases hheld
    · rw [if_neg hw] at hnew
      cases hnew
      exact ⟨⟨_, hold, hheld⟩, fun hb => hw (by cases hb; rfl)⟩

end Exchanges

/-! ## The steps of a pair are exchanges -/

section Steps

variable {s s' : Site}

/-- A chore is an exchange: its debt is gone with what it was for. -/
theorem Chore.Part.exchange {chores rest : List Chore} (h : Chore.Part s chores rest s')
    (backed : s.Backs chores) : Exchange s chores s' rest := by
  cases h with
  | stop w process rest there =>
    -- What is owed for the process stays owed: first to stop it, then to await its end.
    exact .of_new rfl rfl (fun _ => rfl) (fun b hb => .inl (Site.has_setProcess.mp hb))
      fun b hb => hb
  | skip w _ gone =>
    refine .of_done rest rfl rfl (List.Subset.refl _) fun b hb => ⟨hb, fun hw => ?_⟩
    -- A process that was never spawned is not there.
    cases hw
    obtain ⟨worker, hthere, -⟩ := hb
    simp [Site.process?, hthere] at gone
  | await w call _ returned =>
    exact .of_gone rest rfl rfl (List.Subset.refl _) fun _ => Site.has_drop
  | clear seat _ => exact .of_gone rest rfl rfl (List.Subset.refl _) fun _ => Site.has_clear
  | forgo seat left _ there =>
    refine .of_done rest rfl rfl (List.subset_cons_self ..) fun b hb => ?_
    -- The directory is there as before, and it is noted that it is.
    have hseat : Site.Forgoes (s.forgo seat left) (.folder seat) := List.mem_cons_self ..
    refine ⟨?_, fun hw => ?_⟩
    · rcases Site.has_put hb with hb | rfl
      · exact hb
      · exact there
    · cases hw
      exact hseat
  | release port _ =>
    -- The port is owed, hence leased.
    have hleased : port ∈ s.ports.leased := by
      rw [← PortSet.count_pos_iff]
      refine Nat.lt_of_lt_of_le ?_ (backed port)
      exact List.count_pos_iff.mpr (List.mem_cons_self ..)
    refine ⟨fun x => ?_, fun b hb => ?_, List.Subset.refl _⟩
    · have hcount := PortAllocator.count_release hleased x
      have hcons : (ports (.release port :: rest)).count x =
          [port].count x + (ports rest).count x := by
        show ([port] ++ ports rest).count x = _
        exact List.count_append ..
      rw [hcons, ← hcount]
      exact (Nat.add_assoc ..).symm
    · by_cases hrest : b ∈ belongings rest
      · exact .inl hrest
      · refine .inr (.inl ⟨?_, hrest⟩)
        cases b <;> exact hb

/-- What a start with a given circuit would undo covers the seat that is next. -/
theorem Startup.mem_belongings_undo (s : Startup) (circuit : Option WorkerId) :
    .folder (s.seat circuit) ∈ Chore.belongings (s.undo circuit) := by
  cases circuit <;> exact List.mem_cons_self ..

/-- Every step of a start is an exchange: it owes what it adds to the site. -/
theorem Startup.Advance.exchange {now : Time} {stop : StopSignal} {t t' : Startup}
    {a : Startup.Action} (h : t.Advance now stop s a t' s') (backed : s.Backs t.debts) :
    Exchange s t.debts s' t'.debts := by
  obtain ⟨c, f, stage⟩ := t
  have hseat := Startup.mem_belongings_undo ⟨c, f, stage⟩
  cases h with
  | prepare circuit contents hstage =>
    cases hstage
    refine .of_new rfl rfl (fun _ => rfl) (fun b hb => ?_) fun b hb => hb
    -- The directory that was put there is the one that is owed for the seat.
    rcases Site.has_put hb with hb | rfl
    · exact .inl (Site.has_noteLaunch.mp hb)
    · exact .inr (hseat circuit)
  | reject circuit left cause hstage =>
    cases hstage
    cases left with
    | none =>
      exact .of_new rfl rfl (fun _ => rfl) (fun b hb => .inl (Site.has_noteLaunch.mp hb))
        fun b hb => hb
    | some contents =>
      refine .of_new rfl rfl (fun _ => rfl) (fun b hb => ?_) fun b hb => hb
      rcases Site.has_put hb with hb | rfl
      · exact .inl (Site.has_noteLaunch.mp hb)
      · exact .inr (hseat circuit)
  | spawn circuit settle hstage =>
    cases hstage
    refine .of_new rfl rfl (fun _ => rfl) (fun b hb => ?_) fun b hb => List.mem_cons_of_mem _ hb
    -- To stop the new process comes before all that was owed already.
    rcases Site.has_spawn hb with hb | rfl
    · exact .inl hb
    · exact .inr (List.mem_cons_self ..)
  | refuse circuit error hstage => cases hstage; exact .of_eq s rfl
  | interruptSpawn circuit stopping hstage => cases hstage; exact .of_eq s rfl
  | interruptSettling circuit w deadline stopping hstage =>
    cases hstage
    exact .of_gone _ rfl rfl (List.Subset.refl _) fun _ => Site.has_drop
  | settle circuit w deadline process hstage =>
    cases hstage
    cases circuit with
    | none => exact .of_same (fun _ => rfl) fun b hb => List.mem_cons_of_mem _ hb
    | some circuit =>
      -- The circuit is stopped before the directory of the forwarder is removed, not after it.
      exact .of_same (fun _ => rfl) fun b hb => (List.Perm.cons _ (.swap ..)).mem_iff.mp hb
  | endEarly circuit w deadline process outcome hstage =>
    cases hstage
    exact .of_gone _ rfl rfl (List.Subset.refl _) fun _ => Site.has_drop
  | undo chores rest cause site' hstage part =>
    cases hstage
    exact part.exchange backed
  | undone cause hstage => cases hstage; exact .of_eq s rfl

/-- What happens to a process exchanges nothing. -/
theorem Site.exchange_of_processStep {now : Time} {w : WorkerId} {a : Process.Action}
    (h : s.processStep now w a = some s') (debts : List Chore) : Exchange s debts s' debts := by
  obtain ⟨worker, process, -, -, rfl⟩ := processStep_eq_some h
  exact .of_new rfl rfl (fun _ => rfl) (fun b hb => .inl (has_setProcess.mp hb)) fun b hb => hb

/-! ## Ports are released last -/

/-- What is left of chores in order is in order. -/
theorem Chore.Part.orderly {chores rest : List Chore} (h : Chore.Part s chores rest s')
    (ho : Chore.Orderly chores) : Chore.Orderly rest := by
  cases h with
  | stop => exact ho
  | skip | await | clear | forgo => exact ho.2
  | release port =>
    -- After a release only releases are left, and so it is after the next one.
    cases rest with
    | nil => trivial
    | cons c rest =>
      have hc : c.port?.isSome := ho c (List.mem_cons_self ..)
      cases c with
      | release port => exact fun d hd => ho d (List.mem_cons_of_mem _ hd)
      | stop | await | clear => cases hc

theorem Chore.orderly_releases (p q : Port) : Chore.Orderly [.release p, .release q] := by
  intro c hc
  rw [List.mem_singleton.mp hc]
  rfl

theorem Pair.orderly_teardown (p : Pair) : Chore.Orderly p.teardown :=
  ⟨rfl, rfl, rfl, rfl, Chore.orderly_releases _ _⟩

theorem Startup.orderly_undo (s : Startup) (circuit : Option WorkerId) :
    Chore.Orderly (s.undo circuit) := by
  cases circuit with
  | none => exact ⟨rfl, Chore.orderly_releases _ _⟩
  | some w => exact ⟨rfl, rfl, rfl, Chore.orderly_releases _ _⟩

/-- The debts of a start are in order at every stage. -/
theorem Startup.Advance.orderly {now : Time} {stop : StopSignal} {t t' : Startup}
    {a : Startup.Action} (h : t.Advance now stop s a t' s') (ho : Chore.Orderly t.debts) :
    Chore.Orderly t'.debts := by
  cases h with
  | prepare circuit | reject circuit | refuse circuit | interruptSpawn circuit
  | interruptSettling circuit | endEarly circuit => exact Startup.orderly_undo _ circuit
  | spawn circuit =>
    refine ⟨?_, Startup.orderly_undo _ circuit⟩
    cases circuit <;> rfl
  | settle circuit w =>
    cases circuit with
    | none => exact Startup.orderly_undo t (some w)
    | some c => exact Pair.orderly_teardown ⟨t.circuitPort, t.forwarderPort, c, w⟩
  | undo chores rest cause site' stage part =>
    have hdebts : t.debts = chores := by simp only [Startup.debts, stage]
    exact part.orderly (hdebts ▸ ho)
  | undone => trivial

/-- Until the releases begin both ports are held. -/
theorem Chore.Orderly.length_ports {c : Chore} {rest : List Chore} (ho : Chore.Orderly (c :: rest))
    (hc : c.port? = none) : (Chore.ports (c :: rest)).length = 2 := by
  rw [Chore.ports, List.filterMap_cons_none hc]
  cases c with
  | release port => cases hc
  | stop | await | clear => exact ho.1

end Steps

end OnionPool
