import OnionPool.Proofs.PoolOwnership

/-!
# What a step of the pool does away with

A step asks a process for its end, removes a directory or releases a port only as the next chore of
a task. Everything else that happens keeps what is there, and a process that was reaped stays so.

## Structure

- `Site.Undoes` says that a step does what a chore is for, and `Site.Undoes.eq_some` that it does so
  for one chore at most.
- `Chore.Part.undoes`, `Startup.Advance.undoes`, `Move.undoes` and `Change.undoes` find the chore.
- `Change.reapedAt_cases` says that a process is reaped once, and `Change.isReaped` that it stays
  so.
-/

namespace OnionPool

/-! ## What a step does away with -/

/-- A step does what a chore is for: it asks for the end of a process, removes a directory, or
releases a port. -/
def Site.Undoes (s s' : Site) : Chore → Prop
  | .stop w => ∃ worker worker', s.workers[w]? = some worker ∧ s'.workers[w]? = some worker' ∧
      worker.process.calls.length < worker'.process.calls.length
  | .await _ _ => False
  | .clear seat => s.hasFolder seat = true ∧ s'.hasFolder seat = false
  | .release port => port ∈ s.ports.leased ∧ port ∉ s'.ports.leased

section Sites

variable {s s' : Site} {w : WorkerId} {c : Chore}

/-- Whoever keeps all that is there, but for what one chore is for, does away with that, or with
nothing. -/
theorem Site.Undoes.eq_some {d : Option Chore} (h : s.Undoes s' c)
    (workers : ∀ (w : WorkerId) (worker worker' : Worker), d ≠ some (.stop w) →
      s.workers[w]? = some worker → s'.workers[w]? = some worker' →
      worker'.process.calls.length ≤ worker.process.calls.length)
    (folders : ∀ seat, d ≠ some (.clear seat) → s.hasFolder seat = true →
      s'.hasFolder seat = true)
    (ports : ∀ port, d ≠ some (.release port) → port ∈ s.ports.leased → port ∈ s'.ports.leased) :
    d = some c := by
  by_contra hne
  cases c with
  | stop w =>
    obtain ⟨worker, worker', hthere, hthere', hlt⟩ := h
    exact absurd hlt (Nat.not_lt.mpr (workers w worker worker' hne hthere hthere'))
  | await => exact h
  | clear seat =>
    have hthere := folders seat hne h.1
    rw [h.2] at hthere
    cases hthere
  | release port => exact h.2 (ports port hne h.1)

/-- Whoever keeps all that is there does away with nothing. -/
theorem Site.not_undoes
    (workers : ∀ (w : WorkerId) (worker worker' : Worker), s.workers[w]? = some worker →
      s'.workers[w]? = some worker' → worker'.process.calls.length ≤ worker.process.calls.length)
    (folders : ∀ seat, s.hasFolder seat = true → s'.hasFolder seat = true)
    (ports : ∀ port ∈ s.ports.leased, port ∈ s'.ports.leased) : ¬ s.Undoes s' c := fun h =>
  nomatch h.eq_some (d := none) (fun w worker worker' _ => workers w worker worker')
    (fun seat _ => folders seat) fun port _ => ports port

/-- Nobody is asked by what leaves the processes alone. -/
theorem Site.calls_of_workers (workers : s'.workers = s.workers) (w : WorkerId)
    (worker worker' : Worker) (there : s.workers[w]? = some worker)
    (there' : s'.workers[w]? = some worker') :
    worker'.process.calls.length ≤ worker.process.calls.length := by
  rw [workers] at there'
  cases there.symm.trans there'
  exact Nat.le_refl _

theorem Site.calls_of_drop (w v : WorkerId) (worker worker' : Worker)
    (there : s.workers[v]? = some worker) (there' : (s.drop w).workers[v]? = some worker') :
    worker'.process.calls.length ≤ worker.process.calls.length := by
  rw [drop, List.getElem?_modify, there] at there'
  split at there' <;> cases there' <;> exact Nat.le_refl _

/-- A directory that is made leaves the others where they are. -/
theorem Site.hasFolder_put_of_hasFolder (seat : Seat) (contents : Contents) (other : Seat)
    (there : s.hasFolder other = true) : (s.put seat contents).hasFolder other = true := by
  rw [hasFolder_put, there, Bool.or_true]

/-- A part of some chores does away with what the first of them is for. -/
theorem Chore.Part.undoes {chores rest : List Chore} (h : Chore.Part s chores rest s')
    (undoes : s.Undoes s' c) : ∃ rest, chores = c :: rest := by
  have hsame : ∀ seat, s.hasFolder seat = true → s.hasFolder seat = true := fun _ => id
  -- For each chore: it does away with nothing else, so what is gone is its own.
  cases h with
  | stop w process rest there =>
    have hc : some (Chore.stop w) = some c := by
      refine undoes.eq_some (fun v worker worker' hne hthere hthere' => ?_) (fun _ _ => id)
        fun _ _ => id
      have hvw : w ≠ v := fun hw => hne (by rw [hw])
      rw [Site.workers_setProcess _ hvw] at hthere'
      cases hthere.symm.trans hthere'
      exact Nat.le_refl _
    cases hc
    exact ⟨rest, rfl⟩
  | skip => exact absurd undoes (Site.not_undoes (Site.calls_of_workers rfl) hsame fun _ => id)
  | await w => exact absurd undoes (Site.not_undoes (Site.calls_of_drop w) hsame fun _ => id)
  | clear seat rest =>
    have hc : some (Chore.clear seat) = some c := by
      refine undoes.eq_some (fun v worker worker' _ => Site.calls_of_workers rfl v worker worker')
        (fun other hne hthere => ?_) fun _ _ => id
      have hother : seat ≠ other := fun hseat => hne (by rw [hseat])
      rw [Site.hasFolder_clear_of_ne hother]
      exact hthere
    cases hc
    exact ⟨rest, rfl⟩
  | forgo seat left =>
    exact absurd undoes (Site.not_undoes (Site.calls_of_workers rfl)
      (Site.hasFolder_put_of_hasFolder seat left) fun _ => id)
  | release port rest =>
    have hc : some (Chore.release port) = some c := by
      refine undoes.eq_some (fun v worker worker' _ => Site.calls_of_workers rfl v worker worker')
        (fun _ _ => id) fun other hne hthere => ?_
      exact PortSet.mem_erase.mpr ⟨fun hport => hne (by rw [hport]), hthere⟩
    cases hc
    exact ⟨rest, rfl⟩

/-- A step of a start does away with nothing, unless it is undone. -/
theorem Startup.Advance.undoes {now : Time} {stop : StopSignal} {t t' : Startup}
    {a : Startup.Action} (h : t.Advance now stop s a t' s') (undoes : s.Undoes s' c) :
    ∃ rest, t.debts = c :: rest := by
  have hsame : ∀ seat, s.hasFolder seat = true → s.hasFolder seat = true := fun _ => id
  have hput := fun circuit => Site.hasFolder_put_of_hasFolder (s := s) (t.seat circuit)
  -- A start that goes on only adds to the site.
  cases h with
  | undo chores rest cause site' stage part =>
    obtain ⟨rest, rfl⟩ := part.undoes undoes
    exact ⟨rest, by simp only [Startup.debts, stage]⟩
  | prepare circuit contents =>
    exact absurd undoes
      (Site.not_undoes (Site.calls_of_workers rfl) (hput circuit contents) fun _ => id)
  | reject circuit left =>
    cases left with
    | none => exact absurd undoes (Site.not_undoes (Site.calls_of_workers rfl) hsame fun _ => id)
    | some contents =>
      exact absurd undoes
        (Site.not_undoes (Site.calls_of_workers rfl) (hput circuit contents) fun _ => id)
  | spawn circuit settle =>
    refine absurd undoes
      (Site.not_undoes (fun w worker worker' hthere hthere' => ?_) hsame fun _ => id)
    cases hthere'.symm.trans (Site.workers_spawn _ hthere)
    exact Nat.le_refl _
  | interruptSettling circuit w | endEarly circuit w =>
    exact absurd undoes (Site.not_undoes (Site.calls_of_drop w) hsame fun _ => id)
  | refuse | interruptSpawn | settle | undone =>
    exact absurd undoes (Site.not_undoes (Site.calls_of_workers rfl) hsame fun _ => id)

/-! ## Who was reaped stays so -/

/-- When a process was reaped. -/
def Site.reapedAt? (s : Site) (w : WorkerId) : Option Time :=
  (s.process? w).bind (·.reapedAt?)

theorem Site.isReaped_eq (s : Site) (w : WorkerId) : s.isReaped w = (s.reapedAt? w).isSome := by
  unfold isReaped reapedAt?
  cases s.process? w with
  | none => rfl
  | some process => exact process.isSome_reapedAt.symm

/-- Whoever changes a process otherwise does not reap it. -/
theorem Site.reapedAt?_modify {v : WorkerId} {f : Worker → Worker}
    (kept : ∀ worker, s.workers[v]? = some worker →
      (f worker).process.reapedAt? = worker.process.reapedAt?) (w : WorkerId) :
    Site.reapedAt? { s with workers := s.workers.modify v f } w = s.reapedAt? w := by
  unfold reapedAt? process?
  rw [List.getElem?_modify]
  cases hthere : s.workers[w]? with
  | none => rfl
  | some worker =>
    by_cases hvw : v = w
    · subst hvw
      simp [kept worker hthere]
    · simp [hvw]

theorem Site.reapedAt?_drop (s : Site) (v w : WorkerId) :
    (s.drop v).reapedAt? w = s.reapedAt? w := by
  refine Site.reapedAt?_modify ?_ w
  exact fun _ _ => rfl

/-- No chore reaps a process. -/
theorem Chore.Part.reapedAt_eq {chores rest : List Chore} (h : Chore.Part s chores rest s')
    (w : WorkerId) : s'.reapedAt? w = s.reapedAt? w := by
  cases h with
  | stop v process rest there =>
    refine Site.reapedAt?_modify (fun worker hthere => ?_) w
    -- The process that is asked for its end is the one that was looked up.
    obtain ⟨worker', hthere', rfl⟩ := Option.map_eq_some_iff.mp there
    cases hthere.symm.trans hthere'
    rfl
  | await v => exact s.reapedAt?_drop v w
  | skip | clear | forgo | release => rfl

/-- No start reaps a process. -/
theorem Startup.Advance.reapedAt_eq {now : Time} {stop : StopSignal} {t t' : Startup}
    {a : Startup.Action} (h : t.Advance now stop s a t' s') (w : WorkerId) :
    s'.reapedAt? w = s.reapedAt? w := by
  cases h with
  | undo chores rest cause site' stage part => exact part.reapedAt_eq w
  | interruptSettling circuit v | endEarly circuit v => exact s.reapedAt?_drop v w
  | spawn circuit settle =>
    unfold Site.reapedAt? Site.process?
    cases hthere : s.workers[w]? with
    | some worker => rw [Site.workers_spawn _ hthere]
    | none =>
      -- A process that is new was not reaped.
      rw [Site.spawn, List.getElem?_append_right (List.getElem?_eq_none_iff.mp hthere)]
      cases w - s.workers.length <;> rfl
  | reject circuit left => cases left <;> rfl
  | prepare | refuse | interruptSpawn | settle | undone => rfl

/-- A process is reaped once, at the moment of a step of its own. -/
theorem Site.reapedAt_of_processStep {now : Time} {v : WorkerId} {a : Process.Action}
    (h : s.processStep now v a = some s') (w : WorkerId) :
    s'.reapedAt? w = s.reapedAt? w ∨ s.reapedAt? w = none ∧ s'.reapedAt? w = some now := by
  obtain ⟨worker, process, hthere, hstep, rfl⟩ := Site.processStep_eq_some h
  by_cases hvw : v = w
  · subst hvw
    have hafter : (s.setProcess v process).reapedAt? v = process.reapedAt? := by
      simp [Site.reapedAt?, Site.process?, Site.setProcess, hthere]
    have hbefore : s.reapedAt? v = worker.process.reapedAt? := by
      simp [Site.reapedAt?, Site.process?, hthere]
    rw [hafter, hbefore]
    exact (Process.transition_of_step hstep).reapedAt_cases
  · refine .inl ?_
    rw [Site.reapedAt?, Site.process?, Site.workers_setProcess process hvw]
    rfl

end Sites

/-! ## Steps of the pool -/

namespace Pool

/-- A step does what a chore is for. -/
def Does (c : Chore) (p : Pool) (_ : Action) (q : Pool) : Prop := p.site.Undoes q.site c

/-- A step takes a port out of the registry. -/
def Withdraws (port : Port) (p : Pool) (_ : Action) (q : Pool) : Prop :=
  port ∈ p.proxy.registry ∧ port ∉ q.proxy.registry

section Steps

variable {now : Time} {p q : Pool} {t t' : Task} {i : Nat} {a : Action} {c : Chore} {w : WorkerId}

/-- A move does away with what its next chore is for, and only when the pair does not serve. -/
theorem Move.undoes (h : Move now p t t' q) (undoes : p.site.Undoes q.site c) :
    t.pair = none ∧ ∃ rest, t.debts = c :: rest := by
  cases h with
  | startup s s' a site step => exact ⟨rfl, (Startup.advance_of_step step).undoes undoes⟩
  | discardChore chores rest site part => exact ⟨rfl, part.undoes undoes⟩
  | tearChore chores rest site part => exact ⟨rfl, part.undoes undoes⟩
  | leaseOne circuit ports lease =>
    refine ⟨rfl, [], ?_⟩
    have hc : some (Chore.release circuit) = some c := by
      refine undoes.eq_some (fun v worker worker' _ => Site.calls_of_workers rfl v worker worker')
        (fun _ _ => id) fun other hne hthere => ?_
      refine PortSet.mem_erase.mpr ⟨fun hport => hne (by rw [hport]), ?_⟩
      rw [PortAllocator.leased_of_lease_none lease]
      exact hthere
    cases hc
    rfl
  | leaseFirst circuit ports lease | leaseSecond _ circuit ports lease =>
    refine absurd undoes
      (Site.not_undoes (Site.calls_of_workers rfl) (fun _ => id) fun port hport => ?_)
    show port ∈ ports.leased
    rw [(PortAllocator.scan_some lease).2]
    exact PortSet.mem_insert.mpr (.inr hport)
  | leaseNone ports lease =>
    refine absurd undoes
      (Site.not_undoes (Site.calls_of_workers rfl) (fun _ => id) fun port hport => ?_)
    show port ∈ ports.leased
    rw [PortAllocator.leased_of_lease_none lease]
    exact hport
  | _ =>
    exact absurd undoes (Site.not_undoes (Site.calls_of_workers rfl) (fun _ => id) fun _ => id)

/-- Whatever is done away with in the pool is what the next chore of a task is for. -/
theorem Change.undoes (h : Change now p a q) (does : Does c p a q) :
    ∃ (j : Nat) (u : Task), p.tasks[j]? = some u ∧ u.pair = none ∧ ∃ rest, u.debts = c :: rest := by
  cases h with
  | task j a u u' r there move => exact ⟨j, u, there, move.undoes does⟩
  | worker w a site step =>
    have ha : a ≠ .terminate := Site.ne_terminate_of_processStep step
    obtain ⟨worker, process, hthere, hstep, rfl⟩ := Site.processStep_eq_some step
    refine absurd does (Site.not_undoes (fun v old new hold hnew => ?_) (fun _ => id) fun _ => id)
    by_cases hwv : w = v
    · subst hwv
      cases hthere.symm.trans hold
      rw [Site.setProcess, List.getElem?_modify_eq, hold] at hnew
      cases hnew
      exact Nat.le_of_eq ((Process.transition_of_step hstep).length_calls ha)
    · rw [Site.workers_setProcess process hwv] at hnew
      cases hold.symm.trans hnew
      exact Nat.le_refl _
  | _ =>
    exact absurd does (Site.not_undoes (Site.calls_of_workers rfl) (fun _ => id) fun _ => id)

/-- No task reaps a process. -/
theorem Move.reapedAt_eq (h : Move now p t t' q) (w : WorkerId) :
    q.site.reapedAt? w = p.site.reapedAt? w := by
  cases h with
  | startup s s' a site step => exact (Startup.advance_of_step step).reapedAt_eq w
  | discardChore chores rest site part => exact part.reapedAt_eq w
  | tearChore chores rest site part => exact part.reapedAt_eq w
  | _ => rfl

/-- A process is reaped once, and the time of that is kept. -/
theorem Change.reapedAt_cases (h : Change now p a q) (w : WorkerId) :
    q.site.reapedAt? w = p.site.reapedAt? w ∨
      p.site.reapedAt? w = none ∧ q.site.reapedAt? w = some now := by
  cases h with
  | task j a u u' r there move => exact .inl (move.reapedAt_eq w)
  | worker v a site step => exact Site.reapedAt_of_processStep step w
  | _ => exact .inl rfl

/-- A process that was reaped stays so. -/
theorem Change.isReaped (h : Change now p a q) (reaped : p.site.isReaped w = true) :
    q.site.isReaped w = true := by
  rw [Site.isReaped_eq] at reaped ⊢
  rcases h.reapedAt_cases w with hkept | ⟨-, hnow⟩
  · rw [hkept]
    exact reaped
  · rw [hnow]
    rfl

end Steps

end Pool

end OnionPool
