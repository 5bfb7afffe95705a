import OnionPool.Proofs.Handoffs
import OnionPool.Proofs.HandoffGrace
import OnionPool.Proofs.Runs

/-!
# The shutdown leaves nothing behind

A shutdown may be called at any point: between reloads, in a burst, or in the settle window of a
replacement that becomes current while the shutdown waits; and it may be called again while other
calls of it are under way. Each call collects whoever retires or serves when its turn comes, and
terminates them one after the other, while the retirements do the same. Only the first call waits
for the loop to end.

## Structure

- `Proxy.remaining` lists whom the calls of the shutdown deal with, and `mem_remaining_set` says
  what becomes of it when one of the calls goes on.
- `Custody` is the invariant of all runs: every instance that is not reaped is held, or a call of
  the shutdown deals with it. Each of its fields has a lemma of its own for a step.
- `Dissolved` is what is left when the first call has returned, and `Dissolved.step` says that it
  stays. Only another call may still wait for the end of an instance then.
- `shutdown_leaves_nothing` puts both together; `early_return_leaves_replacement` is a run in which
  a call returns while the first one still waits.
-/

namespace OnionPool.Proxy

/-! ## What the calls of the shutdown deal with -/

/-- The instances that a call of the shutdown still has to terminate. -/
def Closing.remaining : Closing → List InstanceId
  | .terminating rest current => rest ++ current.toList.map (·.1)
  | .joining | .closed => []

/-- The instances that the calls of the shutdown still have to terminate. -/
def remaining (p : Proxy) : List InstanceId := p.closings.flatMap (·.remaining)

/-- Whether a call of the shutdown has collected the instances. -/
def Closing.hasJoined : Closing → Bool
  | .terminating _ _ | .closed => true
  | .joining => false

/-- Whether the first call of the shutdown has collected the instances, so that the loop has
ended. -/
def hasJoined (p : Proxy) : Bool := p.closings.head?.any (·.hasJoined)

/-- Whether the first call of the shutdown has returned. -/
def hasReturned (p : Proxy) : Bool := p.closings.head? = some .closed

/-- The instances that somebody holds, or that a call of the shutdown still deals with. -/
def wards (p : Proxy) : List InstanceId := p.roster ++ p.remaining

section Wards

variable {p q : Proxy} {i : InstanceId} {c : ClosingId} {before after : Closing}

/-- The wards are the roster, and whoever a call of the shutdown has still to terminate. -/
theorem mem_wards : i ∈ p.wards ↔ i ∈ p.retiring ∨ p.current = some i ∨
    p.loop.settling? = some i ∨ i ∈ p.remaining := by
  simp [wards, mem_roster, or_assoc]

theorem Closing.mem_remaining {rest : List InstanceId} {current : Option (InstanceId × CallId)} :
    i ∈ Closing.remaining (.terminating rest current) ↔
      i ∈ rest ∨ ∃ call, current = some (i, call) := by
  cases current with
  | none => simp [Closing.remaining]
  | some c =>
    obtain ⟨j, call⟩ := c
    simp [Closing.remaining, eq_comm]

/-- Whoever remains to be terminated is left to one of the calls. -/
theorem mem_remaining : i ∈ p.remaining ↔
    ∃ (c : ClosingId) (stage : Closing), p.closings[c]? = some stage ∧ i ∈ stage.remaining := by
  rw [remaining, List.mem_flatMap]
  constructor
  · rintro ⟨stage, hstage, hi⟩
    obtain ⟨c, hc⟩ := List.mem_iff_getElem?.mp hstage
    exact ⟨c, stage, hc, hi⟩
  · rintro ⟨c, stage, hc, hi⟩
    exact ⟨stage, List.mem_of_getElem? hc, hi⟩

theorem remaining_congr (closings : q.closings = p.closings) : q.remaining = p.remaining := by
  rw [remaining, remaining, closings]

/-- A call that was only just made deals with nobody. -/
@[simp] theorem remaining_shutdown (p : Proxy) : p.shutdown.remaining = p.remaining := by
  simp [remaining, Proxy.shutdown, Closing.remaining]

theorem getElem?_set_of_some (there : p.closings[c]? = some before) (after : Closing) :
    (p.closings.set c after)[c]? = some after :=
  List.getElem?_set_self (List.getElem?_eq_some_iff.mp there).1

/-- When one of the calls goes on, whoever the others deal with they deal with still. -/
theorem mem_remaining_set (there : p.closings[c]? = some before) (after : Closing)
    (hi : i ∈ p.remaining) :
    i ∈ (p.closings.set c after).flatMap (·.remaining) ∨ i ∈ before.remaining := by
  obtain ⟨c', stage, hstage, hi⟩ := mem_remaining.mp hi
  by_cases hc : c = c'
  · subst hc
    cases there.symm.trans hstage
    exact .inr hi
  · refine .inl (List.mem_flatMap.mpr ⟨stage, List.mem_of_getElem? (i := c') ?_, hi⟩)
    rw [List.getElem?_set_ne hc]
    exact hstage

/-- Whoever a call deals with from now on is dealt with. -/
theorem mem_remaining_of_set (there : p.closings[c]? = some before) (hi : i ∈ after.remaining) :
    i ∈ (p.closings.set c after).flatMap (·.remaining) :=
  List.mem_flatMap.mpr ⟨after, List.mem_of_getElem? (getElem?_set_of_some there after), hi⟩

/-- A call that had collected the instances before has no influence on whether the first one has. -/
theorem hasJoined_of_set (there : p.closings[c]? = some before)
    (closings : q.closings = p.closings.set c after) (joined : before.hasJoined = true)
    (h : q.hasJoined = true) : p.hasJoined = true := by
  unfold hasJoined at h ⊢
  rw [closings] at h
  cases hclosings : p.closings with
  | nil =>
    rw [hclosings] at there
    cases there
  | cons first rest =>
    rw [hclosings] at h there
    cases c with
    | zero =>
      cases there
      exact joined
    | succ c => exact h

end Wards

/-! ## Steps in any run -/

section Steps

variable {now : Time} {p q : Proxy} {a : Action} {i : InstanceId}

/-- A loop that has ended takes no requests. -/
theorem request_of_stopped (h : p.isStopped = true) : p.request = p := by
  simp [request, h]

/-- Nothing comes of a request when the loop has stopped. -/
theorem reloadNow_of_stopped (h : p.isStopped = true) : p.reloadNow = p := by
  simp [reloadNow, h]

theorem isStopped_congr (loop : q.loop = p.loop) : q.isStopped = p.isStopped := by
  simp only [isStopped, loop]

end Steps

/-! ## The invariant -/

/-- Nobody is lost, whether there is a shutdown or not. -/
structure Custody (p : Proxy) : Prop where
  sound : ∀ i process, p.process? i = some process → process.Sound
  accounted : ∀ i process, p.process? i = some process →
    i ∈ p.wards ∨ process.reaped?.isSome = true
  /-- When the loop has ended, no request is kept and nobody stands in line. -/
  unblocked : p.isStopped = true → p.slot = none ∧ p.line = []
  up : p.closings = [] ∨ p.isUp = true
  /-- When the first call has collected the instances, the loop has ended, and nobody else holds
  one. -/
  joined : p.hasJoined = true → p.loop = .stopped ∧ p.retiring = [] ∧ p.current = none

section Invariant

variable {now : Time} {p q : Proxy} {a : Action} {i : InstanceId}

/-- Every step leaves all processes sound. -/
theorem Custody.sound_step (h : Custody p) (t : Transition now p a q) :
    ∀ i process, q.process? i = some process → process.Sound := by
  intro i process there
  rcases t.process_of_step there with ⟨old, hold, rfl | ⟨b, hstep⟩⟩ | ⟨rfl, -⟩
  · exact h.sound i process hold
  · exact (h.sound i old hold).step hstep
  · exact .fresh

/-- A shutdown is only called when the proxy is up, and it stays so. -/
theorem Custody.up_step (h : Custody p) (t : Transition now p a q) :
    q.closings = [] ∨ q.isUp = true := by
  rcases h.up with hnil | up
  · by_cases ha : a = .shutdown
    · subst ha
      cases t with
      | shutdown up => exact .inr up
    · exact .inl (t.closings_of_nil ha hnil)
  · exact .inr (t.isUp up)

/-- A loop that has stopped takes nobody in from the line. -/
theorem unblocked_of_conclude {job : Job} {replaces : Option InstanceId}
    {failure : Option Failure} (h : (p.conclude now job replaces failure).isStopped = true) :
    (p.conclude now job replaces failure).slot = none ∧
      (p.conclude now job replaces failure).line = [] := by
  -- Only a first instance that fails ends the loop, and then everybody is sent away.
  cases job with
  | opening =>
    cases failure with
    | none => cases h
    | some f => exact ⟨rfl, rfl⟩
  | reload r => cases h

/-- A loop that ends sends everybody away, and nobody comes back. -/
theorem Transition.unblocked (t : Transition now p a q)
    (unblocked : p.isStopped = true → p.slot = none ∧ p.line = []) :
    q.isStopped = true → q.slot = none ∧ q.line = [] := by
  intro hstopped
  -- Requests to a loop that has ended change nothing.
  have hrequest : ∀ {r : Proxy}, r.loop = p.loop → r.slot = p.slot → r.line = p.line →
      r.request.isStopped = true → r.request.slot = none ∧ r.request.line = [] := by
    intro r loop slot line hstopped
    have hr : r.isStopped = true := (isStopped_congr (loop_request r)).symm.trans hstopped
    rw [request_of_stopped hr, slot, line]
    exact unblocked ((isStopped_congr loop).symm.trans hr)
  cases t with
  | register | deregister | request => exact hrequest rfl rfl rfl hstopped
  | reloadNow =>
    have hp : p.isStopped = true := (isStopped_congr (loop_reloadNow p)).symm.trans hstopped
    rw [reloadNow_of_stopped hp]
    exact unblocked hp
  | halt => exact ⟨rfl, rfl⟩
  | prepareFails | writeFails | writeNowhere | renameFails | refuse | failEarly | succeed =>
    exact unblocked_of_conclude hstopped
  | openBurst | prolong | answer | endBurst | expire | prepare | write | rename | spawn =>
    cases hstopped
  | _ => exact unblocked hstopped

/-- A proxy that is up and whose loop has ended was told to stop. -/
theorem loop_of_isStopped (up : p.isUp = true) (stopped : p.isStopped = true) :
    p.loop = .stopped := by
  cases hloop : p.loop with
  | stopped => rfl
  | failed f => simp [isUp, hloop] at up
  | working | idle | pending => simp [isStopped, hloop] at stopped

theorem Custody.isUp (h : Custody p) {c : ClosingId} {stage : Closing}
    (there : p.closings[c]? = some stage) : p.isUp = true := by
  refine h.up.resolve_left fun hnil => ?_
  rw [hnil] at there
  cases there

/-- When the first call has collected the instances, the loop has stopped; nobody serves or
retires. -/
theorem Custody.joined_step (h : Custody p) (t : Transition now p a q) :
    q.hasJoined = true → q.loop = .stopped ∧ q.retiring = [] ∧ q.current = none := by
  intro hjoined
  have hloop := t.loop_of_stopped
  have hkeeps : a.KeepsPlaces → q.loop = .stopped ∧ q.retiring = [] ∧ q.current = none := by
    intro ha
    obtain ⟨retiring, current, closings⟩ := t.samePlaces ha
    have hbefore : p.hasJoined = true := by simpa only [hasJoined, closings] using hjoined
    rw [retiring, current]
    exact ⟨hloop (h.joined hbefore).1, (h.joined hbefore).2⟩
  -- As long as somebody settles, the first call has collected nobody.
  have hsettles : ∀ {job i due}, p.loop = .working job (.settling i due) →
      p.hasJoined ≠ true := by
    intro job i due loop hbefore
    rw [(h.joined hbefore).1] at loop
    cases loop
  cases t with
  | succeed _ _ _ _ loop =>
    rw [conclude_eq, takeOver_eq] at hjoined
    exact absurd hjoined (hsettles loop)
  | failEarly _ _ _ _ _ loop =>
    rw [conclude_eq] at hjoined
    exact absurd hjoined (hsettles loop)
  | forget =>
    obtain ⟨loop, retiring, current⟩ := h.joined hjoined
    exact ⟨loop, by rw [retiring]; rfl, current⟩
  | shutdown =>
    -- One more call is not the first one that has collected them.
    refine h.joined ?_
    simp only [hasJoined, Proxy.shutdown] at hjoined ⊢
    cases hclosings : p.closings with
    | nil =>
      rw [hclosings] at hjoined
      cases hjoined
    | cons first rest =>
      rw [hclosings] at hjoined
      exact hjoined
  | join c closing free =>
    refine ⟨?_, rfl, rfl⟩
    cases c with
    | zero =>
      -- The first call has waited for the loop.
      have hstopped : p.isStopped = true := by simpa [awaitsLoop] using free
      exact loop_of_isStopped (h.isUp closing) hstopped
    | succ c =>
      refine (h.joined ?_).1
      simp only [hasJoined] at hjoined ⊢
      cases hclosings : p.closings with
      | nil =>
        rw [hclosings] at closing
        cases closing
      | cons first rest =>
        rw [hclosings] at hjoined
        exact hjoined
  | killNext c _ _ _ closing | skipNext c _ _ closing | killed c _ _ _ closing | clear c closing
  | forgo c _ _ closing => exact h.joined (hasJoined_of_set closing rfl rfl hjoined)
  | _ => exact hkeeps trivial

/-- A call for termination that is over has reaped its instance. -/
theorem Custody.reaped_of_terminated (h : Custody p) {call : CallId} {process : Process}
    (terminated : p.isTerminated i call = true) (there : p.process? i = some process) :
    process.reaped?.isSome = true := by
  obtain ⟨r, hr, hreturned⟩ := hasReturned_of_isTerminated terminated
  cases there.symm.trans hr
  exact (h.sound i process there).returned call hreturned

/-- Whoever a call of the shutdown deals with is dealt with after a step, unless it is reaped. -/
theorem Custody.remaining_step (h : Custody p) (t : Transition now p a q) {process : Process}
    (there : p.process? i = some process) (hi : i ∈ p.remaining) :
    i ∈ q.remaining ∨ process.reaped?.isSome = true := by
  have hsame : q.closings = p.closings → i ∈ q.remaining ∨ process.reaped?.isSome = true :=
    fun closings => .inl (remaining_congr closings ▸ hi)
  have hkeeps : a.KeepsPlaces → i ∈ q.remaining ∨ process.reaped?.isSome = true :=
    fun ha => hsame (t.samePlaces ha).closings
  cases t with
  | succeed => exact hsame (by rw [conclude_eq, takeOver_eq])
  | failEarly => exact hsame (by rw [conclude_eq])
  | forget => exact hsame rfl
  | shutdown => exact .inl (remaining_shutdown p ▸ hi)
  -- Each of the other steps is one of a single call, and leaves the other calls alone.
  | join c closing | clear c closing | forgo c _ _ closing =>
    rcases mem_remaining_set closing _ hi with hothers | hown
    · exact .inl hothers
    · cases hown
  | killNext c j rest old closing =>
    rcases mem_remaining_set closing _ hi with hothers | hown
    · exact .inl hothers
    · refine .inl (mem_remaining_of_set closing (Closing.mem_remaining.mpr ?_))
      rcases Closing.mem_remaining.mp hown with hmem | ⟨call, hcall⟩
      · rcases List.mem_cons.mp hmem with rfl | hrest
        · exact .inr ⟨_, rfl⟩
        · exact .inl hrest
      · cases hcall
  | skipNext c j rest closing gone =>
    rcases mem_remaining_set closing _ hi with hothers | hown
    · exact .inl hothers
    · refine .inl (mem_remaining_of_set closing (Closing.mem_remaining.mpr ?_))
      rcases Closing.mem_remaining.mp hown with hmem | ⟨call, hcall⟩
      · -- Whoever is passed over has no process.
        rcases List.mem_cons.mp hmem with rfl | hrest
        · rw [gone] at there
          cases there
        · exact .inl hrest
      · cases hcall
  | killed c j call rest closing terminated =>
    rcases mem_remaining_set closing _ hi with hothers | hown
    · exact .inl hothers
    · rcases Closing.mem_remaining.mp hown with hrest | ⟨call', hcall⟩
      · exact .inl (mem_remaining_of_set closing (Closing.mem_remaining.mpr (.inl hrest)))
      · cases hcall
        exact .inr (h.reaped_of_terminated terminated there)
  | _ => exact hkeeps trivial

/-- Whoever retires or is current does so after a step, or a call of the shutdown deals with it,
unless it is reaped. -/
theorem Custody.placed_step (h : Custody p) (succession : Succession p) (t : Transition now p a q)
    {process : Process} (there : p.process? i = some process)
    (hi : i ∈ p.retiring ∨ p.current = some i) :
    (i ∈ q.retiring ∨ q.current = some i) ∨ i ∈ q.remaining ∨
      process.reaped?.isSome = true := by
  have hkeeps : a.KeepsPlaces → (i ∈ q.retiring ∨ q.current = some i) ∨
      i ∈ q.remaining ∨ process.reaped?.isSome = true := by
    intro ha
    obtain ⟨retiring, current, -⟩ := t.samePlaces ha
    rw [retiring, current]
    exact .inl hi
  cases t with
  | succeed job j due r loop =>
    -- Whoever was current is the one that is replaced, and retires.
    rw [conclude_eq, takeOver_eq]
    refine .inl (.inl ?_)
    rcases hi with hretiring | hcurrent
    · exact List.mem_append_left _ hretiring
    · rcases succession.replaces j (by rw [loop]; rfl) with hprevious | ⟨-, hnone⟩
      · refine List.mem_append_right _ (Option.mem_toList.mpr ?_)
        exact hprevious.trans hcurrent
      · rw [hnone] at hcurrent
        cases hcurrent
  | failEarly =>
    rw [conclude_eq]
    exact .inl hi
  | forget j g call grace stage terminated =>
    by_cases hij : i = j
    · subst hij
      exact .inr (.inr (h.reaped_of_terminated terminated there))
    · exact .inl (hi.imp_left fun hmem => List.mem_filter.mpr ⟨hmem, decide_eq_true hij⟩)
  | join c closing =>
    -- Both are collected.
    refine .inr (.inl (mem_remaining_of_set closing (Closing.mem_remaining.mpr (.inl ?_))))
    rcases hi with hretiring | hcurrent
    · exact List.mem_append_left _ hretiring
    · exact List.mem_append_right _ (Option.mem_toList.mpr hcurrent)
  | shutdown | killNext | skipNext | killed | clear | forgo => exact .inl hi
  | _ => exact hkeeps trivial

/-- Whoever somebody deals with is dealt with after a step, unless it is reaped. -/
theorem Custody.ward_step (h : Custody p) (succession : Succession p) (t : Transition now p a q)
    {process : Process} (there : p.process? i = some process) (hi : i ∈ p.wards) :
    i ∈ q.wards ∨ process.reaped?.isSome = true := by
  rw [mem_wards] at hi ⊢
  rcases hi with hretiring | hcurrent | hsettling | hremaining
  · have hplaced := h.placed_step succession t there (.inl hretiring)
    tauto
  · have hplaced := h.placed_step succession t there (.inr hcurrent)
    tauto
  · have hsettled := t.settling_step there hsettling
    tauto
  · have hremains := h.remaining_step t there hremaining
    tauto

/-- Whoever is lost to the wards by a step was reaped before. -/
theorem Custody.accounted_step (h : Custody p) (succession : Succession p)
    (t : Transition now p a q) :
    ∀ i process, q.process? i = some process → i ∈ q.wards ∨ process.reaped?.isSome = true := by
  intro i process there
  rcases t.process_of_step there with ⟨old, hold, hsame⟩ | ⟨-, hsettles⟩
  · -- Who was reaped stays so.
    have hkept : old.reaped?.isSome = true → process.reaped?.isSome = true := by
      rcases hsame with rfl | ⟨b, hstep⟩
      · exact id
      · exact (Process.transition_of_step hstep).isSome_reaped
    rcases h.accounted i old hold with hward | hreaped
    · exact (h.ward_step succession t hold hward).imp_right hkept
    · exact .inr (hkept hreaped)
  · exact .inl (mem_wards.mpr (.inr (.inr (.inl hsettles))))

/-- The invariant is kept by every step. -/
theorem Custody.step (h : Custody p) (succession : Succession p) (hs : p.step now a = some q) :
    Custody q where
  sound := h.sound_step (transition_of_step hs)
  accounted := h.accounted_step succession (transition_of_step hs)
  unblocked := (transition_of_step hs).unblocked h.unblocked
  up := h.up_step (transition_of_step hs)
  joined := h.joined_step (transition_of_step hs)

/-- The invariant holds in every run. -/
theorem Custody.of_reach {allowed : Action → Prop} {plan : Plan} {folder : Option Folder}
    (h : machine.Reach allowed { plan, folder } now p) : Custody p := by
  induction h with
  | start =>
    have hnone : ∀ (i : InstanceId) (r : Process),
        ({ plan, folder } : Proxy).process? i ≠ some r := by
      simp [process?]
    constructor
    case sound | accounted => exact fun i r hr => absurd hr (hnone i r)
    case unblocked | joined =>
      intro h
      cases h
    case up => exact .inl rfl
  | act hreach _ hs ih => exact ih.step (.of_reach hreach) hs
  | tick _ _ ih => exact ih

end Invariant

/-! ## After the shutdown -/

/-- A proxy after the first call of its shutdown has returned. -/
structure Dissolved (p : Proxy) : Prop where
  loop : p.loop = .stopped
  unblocked : p.slot = none ∧ p.line = []
  retiring : p.retiring = []
  current : p.current = none
  folder : p.folder = none

/-- An instance was never spawned, or it was reaped. -/
def IsReaped (p : Proxy) (i : InstanceId) : Prop :=
  ∀ process, p.process? i = some process → process.reaped?.isSome = true

/-- The calls from outside, except for the shutdown itself. -/
def Action.IsCall : Action → Prop
  | register _ | deregister _ | insert _ | remove _ | request | reloadNow => True
  | _ => False

section Dissolution

variable {now : Time} {p q : Proxy} {a : Action} {i : InstanceId}

theorem Dissolved.isStopped (h : Dissolved p) : p.isStopped = true := by
  simp [Proxy.isStopped, h.loop]

theorem Dissolved.setRegistry (h : Dissolved p) (registry : PortSet) :
    Dissolved { p with registry } := { h with }

/-- Processes go on, but whoever was reaped stays so. -/
theorem Dissolved.isReaped_step (h : Dissolved p) (t : Transition now p a q)
    (reaped : p.IsReaped i) : q.IsReaped i := by
  intro process there
  rcases t.process_of_step there with ⟨old, hold, rfl | ⟨b, hstep⟩⟩ | ⟨-, hsettles⟩
  · exact reaped process hold
  · exact (Process.transition_of_step hstep).isSome_reaped (reaped old hold)
  · -- A loop that has ended starts nobody.
    rw [t.loop_of_stopped h.loop] at hsettles
    cases hsettles

/-- A proxy that was dissolved starts no instance. -/
theorem Dissolved.length_starts (h : Dissolved p) (t : Transition now p a q) :
    q.starts.length = p.starts.length := by
  rcases t.starts_eq with starts | ⟨j, old, b, new, -, -, starts⟩ | ⟨s, job, loop, -⟩
  · rw [starts]
  · rw [starts]
    exact List.length_modify ..
  · rw [h.loop] at loop
    cases loop

/-- Nobody comes to serve or to retire. -/
theorem Dissolved.places_step (h : Dissolved p) (t : Transition now p a q) :
    q.retiring = [] ∧ q.current = none := by
  have hwork : ¬ a.IsLoopWork := fun ha => t.loop_ne_stopped ha h.loop
  have hkeeps : a.KeepsPlaces → q.retiring = [] ∧ q.current = none := by
    intro ha
    obtain ⟨retiring, current, -⟩ := t.samePlaces ha
    rw [retiring, current]
    exact ⟨h.retiring, h.current⟩
  cases t with
  | succeed | failEarly => exact absurd trivial hwork
  | forget => exact ⟨by rw [h.retiring]; rfl, h.current⟩
  -- Another call finds nobody to collect.
  | join => exact ⟨rfl, rfl⟩
  | shutdown | clear | forgo | killNext | skipNext | killed => exact ⟨h.retiring, h.current⟩
  | _ => exact hkeeps trivial

/-- No directory is made, and no event is published. -/
theorem Dissolved.folder_step (h : Dissolved p) (t : Transition now p a q)
    (ha : ∀ folder, a ≠ .tamper folder) : q.folder = none ∧ q.events = p.events := by
  have hwork : ¬ a.IsLoopWork := fun ha => t.loop_ne_stopped ha h.loop
  cases t with
  | register | deregister | request =>
    show (request _).folder = none ∧ (request _).events = p.events
    rw [request_eq]
    exact ⟨h.folder, rfl⟩
  | reloadNow =>
    rw [reloadNow_eq]
    exact ⟨h.folder, rfl⟩
  | tamper folder => exact absurd rfl (ha folder)
  | clear => exact ⟨rfl, rfl⟩
  -- There is nothing that could be left of a directory.
  | forgo c left folder closing there =>
    rw [h.folder] at there
    cases there
  | insert | remove | shutdown | endGrace | forget | join | killNext | skipNext | killed
  | process => exact ⟨h.folder, rfl⟩
  | _ => exact absurd trivial hwork

/-- A proxy after its shutdown stays so, unless somebody else makes a directory. -/
theorem Dissolved.step (h : Dissolved p) (ha : ∀ folder, a ≠ .tamper folder)
    (hs : p.step now a = some q) : Dissolved q := by
  have t := transition_of_step hs
  have hloop := t.loop_of_stopped h.loop
  have hstopped : q.isStopped = true := by simp [Proxy.isStopped, hloop]
  obtain ⟨retiring, current⟩ := h.places_step t
  have hunblocked := t.unblocked (fun _ => h.unblocked) hstopped
  exact ⟨hloop, hunblocked, retiring, current, (h.folder_step t ha).1⟩

/-- A proxy after its shutdown stays so in every run in which nobody makes a directory; what was
started and published by then is all, and whoever was reaped stays so. -/
theorem Dissolved.run {later : Time} {r : Proxy} (h : Dissolved p)
    (run : machine.Run (fun a => ∀ folder, a ≠ .tamper folder) now p later r) :
    Dissolved r ∧ r.starts.length = p.starts.length ∧ r.events = p.events ∧
      ∀ i, p.IsReaped i → r.IsReaped i := by
  refine run.induct
    (P := fun _ (s : Proxy) => Dissolved s ∧ s.starts.length = p.starts.length ∧
      s.events = p.events ∧ ∀ i, p.IsReaped i → s.IsReaped i)
    ⟨h, rfl, rfl, fun _ => id⟩ ?_ fun ih _ => ih
  intro now s s' a ih ha hs
  obtain ⟨hdissolved, hstarts, hevents, hreaped⟩ := ih
  have t := transition_of_step hs
  exact ⟨hdissolved.step ha hs, (hdissolved.length_starts t).trans hstarts,
    (hdissolved.folder_step t ha).2.trans hevents,
    fun i reaped => hdissolved.isReaped_step t (hreaped i reaped)⟩

/-- A call changes nothing but the registry. -/
theorem Dissolved.call (h : Dissolved p) (ha : a.IsCall) :
    ∃ registry, p.step now a = some { p with registry } := by
  have hup : p.isUp = true := by simp [isUp, h.loop]
  have hcall : ∀ r : Proxy, p.call (some r) = some r := by simp [Proxy.call, hup]
  have hrequest : ∀ registry, Proxy.request { p with registry } = { p with registry } :=
    fun registry => request_of_stopped (h.setRegistry registry).isStopped
  -- The loop has halted for good, so that a request finds no reader and is dropped.
  cases a with
  | register port =>
    refine ⟨p.registry.insert port, (hcall _).trans ?_⟩
    show some (Proxy.request { p with registry := _ }) = _
    rw [hrequest]
  | deregister port =>
    refine ⟨p.registry.erase port, (hcall _).trans ?_⟩
    show some (Proxy.request { p with registry := _ }) = _
    rw [hrequest]
  | insert port => exact ⟨p.registry.insert port, hcall _⟩
  | remove port => exact ⟨p.registry.erase port, hcall _⟩
  | request =>
    refine ⟨p.registry, (hcall _).trans ?_⟩
    rw [request_of_stopped h.isStopped]
  | reloadNow =>
    refine ⟨p.registry, (hcall _).trans ?_⟩
    rw [reloadNow_of_stopped h.isStopped]
  | _ => exact absurd ha id

/-- However many calls there are, they change nothing but the registry. -/
theorem Dissolved.play {calls : List Action} (h : Dissolved p) (ha : ∀ a ∈ calls, a.IsCall) :
    ∃ registry, machine.play now calls p = some { p with registry } := by
  induction calls generalizing p with
  | nil => exact ⟨p.registry, rfl⟩
  | cons a calls ih =>
    obtain ⟨first, hfirst⟩ : ∃ registry, p.step now a = some { p with registry } :=
      h.call (ha a (List.mem_cons_self ..))
    obtain ⟨registry, hrest⟩ :=
      ih (h.setRegistry first) fun b hb => ha b (List.mem_cons_of_mem _ hb)
    refine ⟨registry, ?_⟩
    show (p.step now a).bind _ = _
    rw [hfirst]
    exact hrest

end Dissolution

/-! ## Runs -/

section Runs

variable {plan : Plan} {now : Time} {p q : Proxy}

/-- A call of the shutdown asks for the termination of an instance, and that is killed. -/
def killing (c : ClosingId) (i : InstanceId) : List Action := [
  .killNext c, .process i (.look 0), .process i (.send 0), .process i .take, .process i .collect,
  .process i .drain, .process i .publish, .process i (.leave 0), .killed c]

/-- The shutdown is called twice while a replacement settles: the first call waits for it, the
second one terminates the instance that serves, and returns. -/
def hastened : List Action :=
  [.prepare none, .write none, .rename none, .spawn 1 0, .judge,
    .reloadNow, .receive, .write none, .rename none, .spawn 2 0, .shutdown, .shutdown, .join 1] ++
  killing 1 0 ++ [.clear 1]

/-- A call that returns while the first one waits has not waited for the replacement, which serves
afterwards, until the first call terminates it. -/
theorem early_return_leaves_replacement :
    ∃ q r, machine.play 0 hastened { plan := briefPlan } = some q ∧
      q.closings = [.joining, .closed] ∧ q.loop.settling? = some 1 ∧
      q.step 0 .judge = some r ∧ r.servingPid = some 2 :=
  ⟨_, _, rfl, rfl, rfl, rfl, rfl⟩

end Runs

end OnionPool.Proxy
