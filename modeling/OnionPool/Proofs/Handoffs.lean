import Mathlib.Data.List.Nodup
import OnionPool.Proofs.ProcessTransition
import OnionPool.Proofs.ProxyInstances

/-!
# Who holds which instance

When a reload succeeds, the instance before it is superseded. Instances share their processes with
whoever holds them: the reload in whose settle window they are, the proxy for the current one, and a
retirement for each superseded one.

## Structure

- `roster` lists the instances that are held as long as there is no shutdown.
- `Handoffs` is the invariant: who holds which instance, whose termination was asked for, and which
  event began which retirement.
- `Handoffs.step` says that it is kept, from one lemma for each kind of transition.
-/

namespace OnionPool.Proxy

/-! ## Instances -/

/-- The instances that somebody holds as long as there is no shutdown. -/
def roster (p : Proxy) : List InstanceId :=
  p.retiring ++ p.current.toList ++ p.loop.settling?.toList

/-- The event of a reload that has superseded an instance. -/
def Event.Supersedes (e : Event) (i : InstanceId) : Prop := e.failure = none ∧ e.replaces = some i

section Roster

variable {p : Proxy} {i : InstanceId}

/-- Whoever retires, serves or settles is on the roster. -/
theorem mem_roster :
    i ∈ p.roster ↔ i ∈ p.retiring ∨ p.current = some i ∨ p.loop.settling? = some i := by
  simp [roster]

/-- Whoever is on the roster is held. -/
theorem holds_of_mem_roster (h : i ∈ p.roster) : p.holds i = true := by
  unfold holds
  rcases mem_roster.mp h with hretiring | hcurrent | hsettling
  · simp [hretiring]
  · simp [hcurrent]
  · simp [isSettling_iff.mpr hsettling]

theorem mem_roster_of_current (current : p.current = some i) : i ∈ p.roster :=
  mem_roster.mpr (.inr (.inl current))

end Roster

/-! ## The invariant -/

/-- The handoffs so far. -/
structure Handoffs (plan : Plan) (now : Time) (p : Proxy) : Prop where
  samePlan : p.plan = plan
  closings : p.closings = []
  opening : p.isUp = false → p.current = none
  sound : ∀ i process, p.process? i = some process → process.Sound
  /-- Every instance that retires has a retirement of its own. -/
  retiring : p.graces.map (·.retired) = p.retiring
  distinct : p.roster.Nodup
  manned : ∀ i ∈ p.roster, (p.process? i).isSome = true
  /-- Nobody is lost. -/
  accounted : ∀ i process, p.process? i = some process →
    i ∈ p.roster ∨ process.reaped?.isSome = true
  unasked : ∀ i process, p.process? i = some process → p.loop.settling? = some i →
    process.calls = []
  serving : ∀ i process, p.process? i = some process → p.current = some i → process.calls = []
  waiting : ∀ g ∈ p.graces, g.stage = .waiting →
    ∀ process, p.process? g.retired = some process → process.calls = []
  /-- Termination is asked for when the grace is over, or there is nothing left to kill. -/
  terminating : ∀ g ∈ p.graces, g.stage ≠ .waiting →
    ∀ process, p.process? g.retired = some process → process.calls ≠ [] ∧
      (g.since + plan.timings.grace ≤ now ∨ process.exited?.isSome = true)
  /-- A retirement begins with the reload that has superseded its instance. -/
  begun : ∀ g ∈ p.graces, ∃ e ∈ p.events, e.Supersedes g.retired ∧ e.finishedAt = g.since
  superseded : ∀ e ∈ p.events, ∀ i, e.Supersedes i →
    (∃ g ∈ p.graces, g.retired = i ∧ g.since = e.finishedAt) ∨
      ∃ process, p.process? i = some process ∧ process.reaped?.isSome = true
  punctual : ∀ g ∈ p.graces, g.since + plan.timings.grace < now →
    ∃ process, p.process? g.retired = some process ∧ process.reaped?.isSome = true

section Invariant

variable {plan : Plan} {now : Time} {p q : Proxy} {i j : InstanceId}

/-- The invariant is about the instances and their retirements. -/
theorem Handoffs.frame (h : Handoffs plan now p) (samePlan : q.plan = p.plan)
    (processes : ∀ i, q.process? i = p.process? i) (graces : q.graces = p.graces)
    (retiring : q.retiring = p.retiring) (current : q.current = p.current)
    (closings : q.closings = p.closings)
    (settling : q.loop.settling? = p.loop.settling?) (up : q.isUp = false → p.isUp = false)
    (events : ∀ e : Event, e.failure = none → (e ∈ q.events ↔ e ∈ p.events)) :
    Handoffs plan now q := by
  -- The roster is read off the fields that are the same.
  have hroster : q.roster = p.roster := by simp only [roster, retiring, current, settling]
  constructor
  all_goals simp only [samePlan, graces, retiring, current, closings, settling, processes, hroster]
  · exact h.samePlan
  · exact h.closings
  · exact fun hup => h.opening (up hup)
  · exact h.sound
  · exact h.retiring
  · exact h.distinct
  · exact h.manned
  · exact h.accounted
  · exact h.unasked
  · exact h.serving
  · exact h.waiting
  · exact h.terminating
  · intro g hg
    obtain ⟨e, he, hsupersedes, hsince⟩ := h.begun g hg
    exact ⟨e, (events e hsupersedes.1).mpr he, hsupersedes, hsince⟩
  · exact fun e he i hi => h.superseded e ((events e hi.1).mp he) i hi
  · exact h.punctual

/-- A request touches no instance. -/
theorem Handoffs.request (h : Handoffs plan now p) : Handoffs plan now p.request := by
  rw [request_eq]
  exact h.frame rfl (fun _ => rfl) rfl rfl rfl rfl rfl id fun _ _ => Iff.rfl

theorem Handoffs.reloadNow (h : Handoffs plan now p) : Handoffs plan now p.reloadNow := by
  rw [reloadNow_eq]
  exact h.frame rfl (fun _ => rfl) rfl rfl rfl rfl rfl id fun _ _ => Iff.rfl

theorem Handoffs.refill (h : Handoffs plan now p) : Handoffs plan now p.refill := by
  rw [refill_eq]
  exact h.frame rfl (fun _ => rfl) rfl rfl rfl rfl rfl id fun _ _ => Iff.rfl

/-- Neither the registry nor the files have to do with who holds which instance. -/
theorem Handoffs.store (h : Handoffs plan now p) (registry : PortSet) (folder : Option Folder) :
    Handoffs plan now { p with registry, folder } :=
  h.frame rfl (fun _ => rfl) rfl rfl rfl rfl rfl id fun _ _ => Iff.rfl

/-- The loop goes on without an instance that settles. -/
theorem Handoffs.toLoop (h : Handoffs plan now p) (loop : Loop) (before : p.loop.settling? = none)
    (after : loop.settling? = none) (up : Proxy.isUp { p with loop } = false → p.isUp = false) :
    Handoffs plan now { p with loop } :=
  h.frame rfl (fun _ => rfl) rfl rfl rfl rfl (after.trans before.symm) up fun _ _ => Iff.rfl

/-- A reload begins. -/
theorem Handoffs.begin (h : Handoffs plan now p) (rs : List Request)
    (before : p.loop.settling? = none) : Handoffs plan now (p.begin now rs) :=
  h.frame rfl (fun _ => rfl) rfl rfl rfl rfl before.symm (fun hup => by cases hup)
    fun _ _ => Iff.rfl

/-- A failure supersedes nothing. -/
theorem Handoffs.fail {job : Job} {stage : Stage} (h : Handoffs plan now p)
    (loop : p.loop = .working job stage) (before : p.loop.settling? = none)
    (replaces : Option InstanceId) (failure : Failure) :
    Handoffs plan now (p.conclude now job replaces (some failure)) := by
  cases job with
  | opening =>
    refine h.frame rfl (fun _ => rfl) rfl rfl rfl rfl before.symm (fun _ => ?_) fun _ _ => Iff.rfl
    simp only [isUp, loop]
  | reload r =>
    refine h.frame rfl (fun _ => rfl) rfl rfl rfl rfl before.symm (fun hup => by cases hup) ?_
    intro e he
    refine ⟨fun hmem => ?_, List.mem_cons_of_mem _⟩
    rcases List.mem_cons.mp hmem with rfl | hmem
    · cases he
    · exact hmem

/-- The instance that settles has ended, and nobody holds it any more. -/
theorem Handoffs.unsettle (h : Handoffs plan now p) (loop : Loop)
    (settling : p.loop.settling? = some i)
    (reaped : ∀ process, p.process? i = some process → process.reaped?.isSome = true)
    (after : loop.settling? = none) (up : Proxy.isUp { p with loop } = false → p.isUp = false) :
    Handoffs plan now { p with loop } := by
  -- Whoever settles stands last on the roster.
  have hbefore : p.roster = Proxy.roster { p with loop } ++ [i] := by
    simp [roster, settling, after]
  have hsub : (Proxy.roster { p with loop }).Sublist p.roster :=
    hbefore ▸ List.sublist_append_left ..
  refine { h with
    opening := fun hup => h.opening (up hup)
    distinct := h.distinct.sublist hsub
    manned := fun j hj => h.manned j (hsub.subset hj)
    accounted := ?accounted
    unasked := ?unasked }
  case accounted =>
    intro j process there
    rcases h.accounted j process there with hj | hj
    · rw [hbefore] at hj
      rcases List.mem_append.mp hj with hj | hj
      · exact .inl hj
      · rw [List.mem_singleton.mp hj] at there
        exact .inr (reaped process there)
    · exact .inr hj
  case unasked =>
    intro j process _ hj
    rw [show loop.settling? = some j from hj] at after
    cases after

/-- Whoever is granted a grace is still on the roster. -/
theorem Handoffs.mem_roster_of_grace (h : Handoffs plan now p) {g : Grace} (hg : g ∈ p.graces) :
    g.retired ∈ p.roster := by
  have hretiring : g.retired ∈ p.retiring := h.retiring ▸ List.mem_map_of_mem hg
  exact mem_roster.mpr (.inl hretiring)

/-- An instance is spawned, and settles. -/
theorem Handoffs.spawn (h : Handoffs plan now p) {s : Start} {loop : Loop}
    (before : p.loop.settling? = none) (fresh : s.process.map (·.2) = some .fresh)
    (after : loop.settling? = some p.starts.length)
    (up : Proxy.isUp { p with loop } = p.isUp) :
    Handoffs plan now { p with starts := p.starts ++ [s], loop } := by
  -- The new instance comes to the end of the roster; the old ones keep their processes.
  have hroster : Proxy.roster { p with starts := p.starts ++ [s], loop } =
      p.roster ++ [p.starts.length] := by
    simp [roster, before, after]
  have hsame : ∀ j ∈ p.roster, j < p.starts.length ∧
      Proxy.process? { p with starts := p.starts ++ [s], loop } j = p.process? j := by
    intro j hj
    obtain ⟨process, there⟩ := Option.isSome_iff_exists.mp (h.manned j hj)
    have hlt := lt_of_process? there
    exact ⟨hlt, process?_append hlt rfl⟩
  have hreaped : ∀ j, (∃ process, p.process? j = some process ∧ process.reaped?.isSome = true) →
      ∃ process, Proxy.process? { p with starts := p.starts ++ [s], loop } j = some process ∧
        process.reaped?.isSome = true := by
    rintro j ⟨process, there, hprocess⟩
    exact ⟨process, (process?_append (lt_of_process? there) rfl).trans there, hprocess⟩
  refine { h with
    opening := fun hup => h.opening (up.symm.trans hup)
    sound := ?sound
    distinct := ?distinct
    manned := ?manned
    accounted := ?accounted
    unasked := ?unasked
    serving := ?serving
    waiting := ?waiting
    terminating := ?terminating
    superseded := fun e he j hj => (h.superseded e he j hj).imp_right (hreaped j)
    punctual := fun g hg hlate => hreaped _ (h.punctual g hg hlate) }
  case sound =>
    intro j process there
    rcases process?_append_eq_some rfl there with hold | ⟨-, hfresh⟩
    · exact h.sound j process hold
    · rw [fresh] at hfresh
      cases hfresh
      exact .fresh
  case distinct =>
    -- Its number is greater than all that were given before.
    rw [hroster]
    refine List.nodup_append.mpr ⟨h.distinct, List.pairwise_singleton .., fun j hj k hk => ?_⟩
    rw [List.mem_singleton.mp hk]
    exact Nat.ne_of_lt (hsame j hj).1
  case manned =>
    intro j hj
    rw [hroster] at hj
    rcases List.mem_append.mp hj with hj | hj
    · rw [(hsame j hj).2]
      exact h.manned j hj
    · rw [List.mem_singleton.mp hj, process?_append_self rfl, fresh]
      rfl
  case accounted =>
    intro j process there
    rw [hroster]
    rcases process?_append_eq_some rfl there with hold | ⟨rfl, -⟩
    · exact (h.accounted j process hold).imp_left (List.mem_append_left _)
    · exact .inl (List.mem_append_right _ (List.mem_singleton_self _))
  case unasked =>
    intro j process there hj
    rw [show j = p.starts.length from Option.some.inj (hj.symm.trans after),
      process?_append_self rfl, fresh] at there
    cases there
    rfl
  case serving =>
    intro j process there hj
    rw [(hsame j (mem_roster_of_current hj)).2] at there
    exact h.serving j process there hj
  case waiting =>
    intro g hg hstage process there
    rw [(hsame _ (h.mem_roster_of_grace hg)).2] at there
    exact h.waiting g hg hstage process there
  case terminating =>
    intro g hg hstage process there
    rw [(hsame _ (h.mem_roster_of_grace hg)).2] at there
    exact h.terminating g hg hstage process there

/-- The instance that settles takes over, and the one before it begins to retire. -/
theorem Handoffs.handOver (h : Handoffs plan now p) (before : p.loop.settling? = some i)
    (events : List Event) (kept : ∀ e ∈ p.events, e ∈ events)
    (new : ∀ e ∈ events, e ∈ p.events ∨ e.replaces = p.current ∧ e.finishedAt = now)
    (begun : ∀ old, p.current = some old → ∃ e ∈ events, e.Supersedes old ∧ e.finishedAt = now) :
    Handoffs plan now { p with
      loop := .idle
      events := events
      current := some i
      retiring := p.retiring ++ p.current.toList
      graces := p.graces ++ p.current.toList.map (⟨·, now, .waiting⟩) } := by
  -- Whoever was on the roster still is, at another place.
  have hroster : Proxy.roster { p with
      loop := .idle
      events := events
      current := some i
      retiring := p.retiring ++ p.current.toList
      graces := p.graces ++ p.current.toList.map (⟨·, now, .waiting⟩) } = p.roster := by
    simp [roster, before]
  refine { h with
    opening := fun hup => by cases hup
    retiring := ?retiring
    distinct := hroster ▸ h.distinct
    manned := hroster ▸ h.manned
    accounted := hroster ▸ h.accounted
    unasked := fun j process _ hj => by cases hj
    serving := ?serving
    waiting := ?waiting
    terminating := ?terminating
    begun := ?begun
    superseded := ?superseded
    punctual := ?punctual }
  case retiring =>
    rw [List.map_append, h.retiring, List.map_map]
    exact congrArg _ (List.map_id _)
  case serving =>
    intro j process there hj
    cases hj
    exact h.unasked i process there before
  case waiting =>
    intro g hg hstage process there
    rcases List.mem_append.mp hg with hg | hg
    · exact h.waiting g hg hstage process there
    · obtain ⟨old, hold, rfl⟩ := List.mem_map.mp hg
      exact h.serving old process there (Option.mem_toList.mp hold)
  case terminating =>
    intro g hg hstage process there
    rcases List.mem_append.mp hg with hg | hg
    · exact h.terminating g hg hstage process there
    · obtain ⟨old, -, rfl⟩ := List.mem_map.mp hg
      exact absurd rfl hstage
  case begun =>
    intro g hg
    rcases List.mem_append.mp hg with hg | hg
    · obtain ⟨e, he, hbegun⟩ := h.begun g hg
      exact ⟨e, kept e he, hbegun⟩
    · obtain ⟨old, hold, rfl⟩ := List.mem_map.mp hg
      exact begun old (Option.mem_toList.mp hold)
  case superseded =>
    intro e he j hj
    rcases new e he with hold | ⟨hreplaces, hfinished⟩
    · refine (h.superseded e hold j hj).imp_left fun ⟨g, hg, hgj⟩ => ?_
      exact ⟨g, List.mem_append_left _ hg, hgj⟩
    · have hcurrent : p.current = some j := hreplaces.symm.trans hj.2
      refine .inl ⟨⟨j, now, .waiting⟩, List.mem_append_right _ ?_, rfl, hfinished.symm⟩
      rw [hcurrent]
      exact List.mem_singleton_self _
  case punctual =>
    -- A grace that begins now is not over.
    intro g hg hlate
    rcases List.mem_append.mp hg with hg | hg
    · exact h.punctual g hg hlate
    · obtain ⟨old, -, rfl⟩ := List.mem_map.mp hg
      exact absurd hlate (Nat.not_lt.mpr (Nat.le_add_right ..))

/-! ### One process changes -/

section Replacement

variable {process process' : Process}

/-- All processes stay sound when one is replaced by a sound one. -/
theorem Handoffs.sound_setProcess (h : Handoffs plan now p) (there : p.process? i = some process)
    (sound : process'.Sound) :
    ∀ j r, (p.setProcess i process').process? j = some r → r.Sound := by
  intro j r hr
  rcases process?_setProcess_eq_some there hr with ⟨-, rfl⟩ | ⟨-, hr⟩
  · exact sound
  · exact h.sound j r hr

/-- A process that has gone on is still there, and so are all others. -/
theorem Handoffs.manned_setProcess (h : Handoffs plan now p) (there : p.process? i = some process)
    (process' : Process) :
    ∀ j ∈ p.roster, ((p.setProcess i process').process? j).isSome = true := by
  intro j hj
  rw [isSome_process?_setProcess there]
  exact h.manned j hj

/-- Nobody is lost when a process is replaced that was not reaped, or stays so. -/
theorem Handoffs.accounted_setProcess (h : Handoffs plan now p)
    (there : p.process? i = some process)
    (kept : process.reaped?.isSome = true → process'.reaped?.isSome = true) :
    ∀ j r, (p.setProcess i process').process? j = some r →
      j ∈ p.roster ∨ r.reaped?.isSome = true := by
  intro j r hr
  rcases process?_setProcess_eq_some there hr with ⟨rfl, rfl⟩ | ⟨-, hr⟩
  · exact (h.accounted i process there).imp_right kept
  · exact h.accounted j r hr

end Replacement

/-- A process goes on, and nobody asks for its termination. -/
theorem Handoffs.process (h : Handoffs plan now p) {process process' : Process}
    (there : p.process? i = some process) {a : Process.Action} (notAsked : a ≠ .terminate)
    (step : process.step (p.holds i) now a = some process') :
    Handoffs plan now (p.setProcess i process') := by
  have ht := Process.transition_of_step step
  have hcalls : process'.calls = [] ↔ process.calls = [] := by
    rw [← List.length_eq_zero_iff, ht.length_calls notAsked, List.length_eq_zero_iff]
  have hreaped : ∀ j, (∃ r, p.process? j = some r ∧ r.reaped?.isSome = true) →
      ∃ r, (p.setProcess i process').process? j = some r ∧ r.reaped?.isSome = true :=
    fun _ => reaped_setProcess there ht.isSome_reaped
  -- Who has asked for nothing still has not.
  have hunasked : ∀ {j : InstanceId}, (∀ r, p.process? j = some r → r.calls = []) →
      ∀ r, (p.setProcess i process').process? j = some r → r.calls = [] := by
    intro j hbefore r hr
    rcases process?_setProcess_eq_some there hr with ⟨rfl, rfl⟩ | ⟨-, hr⟩
    · exact hcalls.mpr (hbefore process there)
    · exact hbefore r hr
  refine { h with
    sound := h.sound_setProcess there ((h.sound i process there).step step)
    manned := h.manned_setProcess there process'
    accounted := h.accounted_setProcess there ht.isSome_reaped
    unasked := fun j r hr hj => hunasked (fun r hr => h.unasked j r hr hj) r hr
    serving := fun j r hr hj => hunasked (fun r hr => h.serving j r hr hj) r hr
    waiting := fun g hg hstage => hunasked (h.waiting g hg hstage)
    terminating := ?terminating
    superseded := fun e he j hj => (h.superseded e he j hj).imp_right (hreaped j)
    punctual := fun g hg hlate => hreaped _ (h.punctual g hg hlate) }
  case terminating =>
    intro g hg hstage r hr
    rcases process?_setProcess_eq_some there hr with ⟨hi, rfl⟩ | ⟨-, hr⟩
    · obtain ⟨hasked, hdue⟩ := h.terminating g hg hstage process (hi ▸ there)
      exact ⟨fun hnil => hasked (hcalls.mp hnil), hdue.imp_right ht.isSome_exited⟩
    · exact h.terminating g hg hstage r hr

/-! ### One retirement changes -/

section Dismissal

variable {call : CallId} {g : Grace}

/-- A retirement that asks for the termination of its instance is one of the same instance. -/
@[simp] theorem Grace.retired_dismiss (i : InstanceId) (call : CallId) (g : Grace) :
    (g.dismiss i call).retired = g.retired := by
  unfold dismiss
  split <;> rfl

@[simp] theorem Grace.since_dismiss (i : InstanceId) (call : CallId) (g : Grace) :
    (g.dismiss i call).since = g.since := by
  unfold dismiss
  split <;> rfl

theorem Grace.stage_dismiss_self : (g.dismiss g.retired call).stage = .terminating call := by
  rw [dismiss, if_pos rfl]

/-- The other retirements are as they were. -/
theorem Grace.dismiss_of_ne (h : g.retired ≠ i) : g.dismiss i call = g := if_neg h

end Dismissal

/-- A retirement is determined by its instance. -/
theorem Handoffs.grace_unique (h : Handoffs plan now p) {g g' : Grace} (hg : g ∈ p.graces)
    (hg' : g' ∈ p.graces) (same : g.retired = g'.retired) : g = g' := by
  -- The retired instances are listed once each, since the roster lists everybody once.
  have hnodup : (p.graces.map (·.retired)).Nodup := by
    rw [h.retiring]
    exact (List.nodup_append.mp (List.nodup_append.mp h.distinct).1).1
  exact List.inj_on_of_nodup_map hnodup hg hg' same

/-- A call that is over is one for a process that was started. -/
theorem hasReturned_of_isTerminated {call : CallId} (h : p.isTerminated i call = true) :
    ∃ process, p.process? i = some process ∧ process.calls[call]? = some .returned := by
  unfold isTerminated at h
  cases there : p.process? i with
  | none => rw [there] at h; cases h
  | some process =>
    rw [there] at h
    exact ⟨process, rfl, of_decide_eq_true h⟩

/-- An instance that retires neither serves nor settles. -/
theorem Handoffs.not_current (h : Handoffs plan now p) (hi : i ∈ p.retiring) :
    p.current ≠ some i ∧ p.loop.settling? ≠ some i := by
  -- Each instance has one place on the roster.
  obtain ⟨hfirst, -, hsettling⟩ := List.nodup_append.mp h.distinct
  obtain ⟨-, -, hcurrent⟩ := List.nodup_append.mp hfirst
  refine ⟨fun hc => ?_, fun hs => ?_⟩
  · exact hcurrent i hi i (by simp [hc]) rfl
  · exact hsettling i (List.mem_append_left _ hi) i (by simp [hs]) rfl

/-- A retirement asks for the termination of its instance. -/
theorem Handoffs.endGrace (h : Handoffs plan now p) {g₀ : Grace} {process : Process}
    (grace : p.grace? i = some g₀) (there : p.process? i = some process)
    (due : process.exited?.isSome = true ∨ g₀.since + plan.timings.grace ≤ now) :
    Handoffs plan now { p.setProcess i process.terminate with
      graces := p.graces.map (·.dismiss i process.nextCall) } := by
  obtain ⟨hg₀, hretired₀⟩ := mem_of_grace? grace
  have hi : i ∈ p.retiring := by
    rw [← h.retiring, ← hretired₀]
    exact List.mem_map_of_mem hg₀
  obtain ⟨hcurrent, hsettling⟩ := h.not_current hi
  -- The process of any other instance is as it was.
  have hother : ∀ {j : InstanceId} {r : Process}, i ≠ j →
      (p.setProcess i process.terminate).process? j = some r → p.process? j = some r :=
    fun hne hr => (process?_setProcess_ne p hne _).symm.trans hr
  have hreaped : ∀ j, (∃ r, p.process? j = some r ∧ r.reaped?.isSome = true) →
      ∃ r, (p.setProcess i process.terminate).process? j = some r ∧ r.reaped?.isSome = true :=
    fun _ => reaped_setProcess there id
  refine { h with
    sound := h.sound_setProcess there (h.sound i process there).terminate
    retiring := ?retiring
    manned := h.manned_setProcess there _
    accounted := h.accounted_setProcess there id
    unasked := fun j r hr hj => h.unasked j r (hother (by rintro rfl; exact hsettling hj) hr) hj
    serving := fun j r hr hj => h.serving j r (hother (by rintro rfl; exact hcurrent hj) hr) hj
    waiting := ?waiting
    terminating := ?terminating
    begun := ?begun
    superseded := ?superseded
    punctual := ?punctual }
  case retiring =>
    rw [List.map_map]
    exact (List.map_congr_left fun g _ => g.retired_dismiss i _).trans h.retiring
  case waiting =>
    intro g' hg' hstage r hr
    obtain ⟨g, hg, rfl⟩ := List.mem_map.mp hg'
    by_cases hgi : g.retired = i
    · subst hgi
      cases Grace.stage_dismiss_self.symm.trans hstage
    · rw [Grace.dismiss_of_ne hgi] at hstage hr
      exact h.waiting g hg hstage r (hother (Ne.symm hgi) hr)
  case terminating =>
    intro g' hg' hstage r hr
    obtain ⟨g, hg, rfl⟩ := List.mem_map.mp hg'
    rw [Grace.since_dismiss]
    rw [Grace.retired_dismiss] at hr
    by_cases hgi : g.retired = i
    · -- It is the retirement that was found, and its call is the last one.
      obtain rfl := h.grace_unique hg hg₀ (hgi.trans hretired₀.symm)
      rw [hgi] at hr
      cases (process?_setProcess_self there process.terminate).symm.trans hr
      exact ⟨by simp [Process.terminate], due.symm⟩
    · rw [Grace.dismiss_of_ne hgi] at hstage
      exact h.terminating g hg hstage r (hother (Ne.symm hgi) hr)
  case begun =>
    intro g' hg'
    obtain ⟨g, hg, rfl⟩ := List.mem_map.mp hg'
    rw [Grace.retired_dismiss, Grace.since_dismiss]
    exact h.begun g hg
  case superseded =>
    intro e he j hj
    rcases h.superseded e he j hj with ⟨g, hg, rfl, hsince⟩ | hdone
    · exact .inl ⟨_, List.mem_map_of_mem hg, by simp, by simpa using hsince⟩
    · exact .inr (hreaped j hdone)
  case punctual =>
    intro g' hg' hlate
    obtain ⟨g, hg, rfl⟩ := List.mem_map.mp hg'
    rw [Grace.since_dismiss] at hlate
    rw [Grace.retired_dismiss]
    exact hreaped _ (h.punctual g hg hlate)

/-- A retirement is over. -/
theorem Handoffs.forget (h : Handoffs plan now p) {call : CallId}
    (terminated : p.isTerminated i call = true) :
    Handoffs plan now { p with
      graces := p.graces.filter (·.retired ≠ i)
      retiring := p.retiring.filter (· ≠ i) } := by
  obtain ⟨process, there, hreturned⟩ := hasReturned_of_isTerminated terminated
  -- Its caller has returned, so the instance is reaped.
  have hreaped : process.reaped?.isSome = true := (h.sound i process there).returned call hreturned
  have hsub : (Proxy.roster { p with
      graces := p.graces.filter (·.retired ≠ i)
      retiring := p.retiring.filter (· ≠ i) }).Sublist p.roster :=
    ((List.filter_sublist (l := p.retiring)).append (.refl _)).append (.refl _)
  have hkept : ∀ {g : Grace}, g ∈ p.graces.filter (·.retired ≠ i) → g ∈ p.graces :=
    fun hg => (List.mem_filter.mp hg).1
  refine { h with
    retiring := ?retiring
    distinct := h.distinct.sublist hsub
    manned := fun j hj => h.manned j (hsub.subset hj)
    accounted := ?accounted
    waiting := fun g hg => h.waiting g (hkept hg)
    terminating := fun g hg => h.terminating g (hkept hg)
    begun := fun g hg => h.begun g (hkept hg)
    superseded := ?superseded
    punctual := fun g hg => h.punctual g (hkept hg) }
  case retiring =>
    rw [← h.retiring, List.filter_map]
    rfl
  case accounted =>
    intro j r hr
    by_cases hij : i = j
    · subst hij
      cases there.symm.trans hr
      exact .inr hreaped
    · refine (h.accounted j r hr).imp_left fun hj => ?_
      have hji : j ≠ i := fun hji => hij hji.symm
      simpa [mem_roster, hji] using hj
  case superseded =>
    intro e he j hj
    rcases h.superseded e he j hj with ⟨g, hg, hgj, hsince⟩ | hdone
    · by_cases hij : i = j
      · subst hij
        exact .inr ⟨process, there, hreaped⟩
      · refine .inl ⟨g, List.mem_filter.mpr ⟨hg, decide_eq_true fun hgi => ?_⟩, hgj, hsince⟩
        exact hij (hgi.symm.trans hgj)
    · exact .inr hdone

theorem settling?_eq_none_of_working {job : Job} {stage : Stage}
    (loop : p.loop = .working job stage) (unspawned : ∀ i deadline, stage ≠ .settling i deadline) :
    p.loop.settling? = none := by
  rw [loop]
  cases stage with
  | settling i deadline => exact absurd rfl (unspawned i deadline)
  | _ => rfl

/-- A job goes on to a stage in which no instance settles. -/
theorem Handoffs.proceed {job : Job} {stage next : Stage} (h : Handoffs plan now p)
    (loop : p.loop = .working job stage) (before : ∀ i deadline, stage ≠ .settling i deadline)
    (after : ∀ i deadline, next ≠ .settling i deadline) :
    Handoffs plan now { p with loop := .working job next } := by
  refine h.toLoop _ (settling?_eq_none_of_working loop before) ?_ fun hup => ?_
  · exact settling?_eq_none_of_working (p := { p with loop := .working job next }) rfl after
  · cases job <;> simp_all [isUp]

/-- The instance that settles has survived, and takes over. -/
theorem Handoffs.succeed {job : Job} {due : Time} (h : Handoffs plan now p)
    (loop : p.loop = .working job (.settling i due)) (replaces : p.previous? i = p.current) :
    Handoffs plan now ((p.takeOver now i).conclude now job (p.previous? i) none) := by
  have before : p.loop.settling? = some i := by rw [loop]; rfl
  rw [takeOver_eq, replaces]
  cases job with
  | opening =>
    -- There is nobody to retire, and no event.
    have hnone : p.current = none := h.opening (by simp only [isUp, loop])
    refine h.handOver before p.events (fun e he => he) (fun e he => .inl he) ?_
    intro old hold
    rw [hnone] at hold
    cases hold
  | reload r =>
    refine h.handOver before (_ :: p.events) (fun e => List.mem_cons_of_mem _) ?_ ?_
    · intro e he
      rcases List.mem_cons.mp he with rfl | he
      · exact .inr ⟨rfl, rfl⟩
      · exact .inl he
    · intro old hold
      exact ⟨_, List.mem_cons_self .., ⟨rfl, hold⟩, rfl⟩

/-- The invariant is kept by every step but the call of a shutdown. -/
theorem Handoffs.step {a : Action} (h : Handoffs plan now p)
    (replaces : ∀ i, p.loop.settling? = some i → p.previous? i = p.current) (ha : a ≠ .shutdown)
    (hs : p.step now a = some q) : Handoffs plan now q := by
  cases transition_of_step hs with
  | register | deregister => exact (h.store _ p.folder).request
  | insert | remove | tamper => exact h.store _ _
  | request => exact h.request
  | reloadNow => exact h.reloadNow
  | shutdown => exact absurd rfl ha
  | openBurst _ _ _ loop | prolong _ _ _ _ _ _ loop =>
    exact h.refill.toLoop _ (by simp [loop, Loop.settling?]) rfl fun hup => by cases hup
  | answer _ _ _ loop | endBurst _ _ _ _ _ _ loop =>
    exact h.refill.begin _ (by simp [loop, Loop.settling?])
  | expire openedAt latestAt rs loop => exact h.begin _ (by simp [loop, Loop.settling?])
  | halt stop loop =>
    have before : p.loop.settling? = none := by
      rcases loop with loop | ⟨openedAt, latestAt, rs, loop⟩ <;> rw [loop] <;> rfl
    exact h.frame rfl (fun _ => rfl) rfl rfl rfl rfl before.symm (fun hup => by cases hup)
      fun _ _ => Iff.rfl
  | prepare job loop | write job _ loop | rename job _ loop =>
    refine (h.proceed loop (by simp) ?_).store p.registry _
    simp
  | prepareFails job _ loop | writeNowhere job _ loop | renameFails job _ _ loop =>
    exact h.fail loop (settling?_eq_none_of_working loop (by simp)) _ _
  | writeFails job folder e left loop =>
    have hfolder := h.store p.registry (some { folder with temporary := some left })
    exact hfolder.fail loop (settling?_eq_none_of_working loop (by simp)) _ _
  | refuse job e loop =>
    have hstart : Handoffs plan now { p with
        starts := p.starts ++ [⟨p.current, p.folder.bind (·.config), none⟩] } :=
      h.frame rfl (process?_append_none rfl rfl) rfl rfl rfl rfl rfl id fun _ _ => Iff.rfl
    exact hstart.fail loop (settling?_eq_none_of_working loop (by simp)) _ _
  -- An instance that has failed is reaped, so the loop may let go of it.
  | failEarly job i due process outcome loop there verdict =>
    have hreaped : ∀ r, p.process? i = some r → r.reaped?.isSome = true := by
      intro r hr
      cases there.symm.trans hr
      exact Process.reaped_of_failed verdict
    have hloop : Handoffs plan now { p with loop := .working job .starting } := by
      refine h.unsettle _ (by rw [loop]; rfl) hreaped rfl fun hup => ?_
      cases job <;> simp_all [isUp]
    cases job with
    | opening => exact hloop.fail rfl rfl (p.previous? i) _
    | reload r => exact hloop.fail rfl rfl _ _
  | spawn job pid settle loop =>
    refine h.spawn (settling?_eq_none_of_working loop (by simp)) rfl rfl ?_
    cases job <;> simp [isUp, loop]
  | succeed job i due process loop => exact h.succeed loop (replaces i (by rw [loop]; rfl))
  | endGrace i g process grace there stage due => exact h.endGrace grace there (h.samePlan ▸ due)
  | forget i g call grace stage terminated => exact h.forget terminated
  | process i a process process' there notAsked step => exact h.process there notAsked step
  -- There is no shutdown.
  | join c closing | killNext c _ _ _ closing | skipNext c _ _ closing | killed c _ _ _ closing
  | clear c closing | forgo c _ _ closing =>
    rw [h.closings] at closing
    cases closing

end Invariant

end OnionPool.Proxy
