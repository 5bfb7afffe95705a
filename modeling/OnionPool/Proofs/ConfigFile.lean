import OnionPool.Proofs.HandoffGrace

/-!
# The configuration file

A configuration is written to a temporary file, which is then moved into place. So the file that is
in place is always a whole one, and it is the one of the last reload that came so far, whatever has
failed since.

## Structure

- `lastWritten` says whose configuration was put in place last.
- `Filed` is the invariant: the file in place, and the temporary file that is about to be moved.
- `Filed.step` says that it is kept, and `Filed.of_reach` that it holds as long as nobody else
  changes the directory.
-/

namespace OnionPool.Proxy

/-! ## What is in place -/

/-- The configuration file. -/
def config? (p : Proxy) : Option String := p.folder.bind (·.config)

/-- Whether a reload had put its configuration in place: what has failed then, if anything, is the
start of the new instance. -/
def Event.wrote (e : Event) : Bool :=
  match e.failure with
  | none | some (.handoff _) => true
  | some _ => false

/-- What the last reload of some has put in place; before any, nobody is in the configuration. -/
def published (events : List Event) : PortSet :=
  match events.find? Event.wrote with
  | some e => .ofList e.backends
  | none => .empty

/-- What the job under way has put in place, if it has come so far. -/
def Loop.written? : Loop → Option PortSet
  | .working job .starting | .working job (.settling _ _) => some job.snapshot
  | _ => none

/-- Whose configuration was put in place last. -/
def lastWritten (p : Proxy) : PortSet := p.loop.written?.getD (published p.events)

/-- Whether the loop has not come to put any configuration in place, or has failed at the start. -/
def Loop.isUnwritten : Loop → Bool
  | .working .opening .preparing | .working .opening .writing | .working .opening .renaming
  | .failed _ => true
  | _ => false

/-- What is in the directory. -/
structure Filed (plan : Plan) (p : Proxy) : Prop where
  config : p.loop.isUnwritten = false → p.config? = some (plan.render p.lastWritten)
  temporary : ∀ job, p.loop = .working job .renaming →
    ∀ text, p.folder.bind (·.temporary) = some text → text = plan.render job.snapshot
  /-- There are no events before the first instance has taken over. -/
  unopened : ∀ stage, p.loop = .working .opening stage → p.events = []

/-! ## The invariant is kept -/

section Steps

variable {plan : Plan} {now : Time} {p q : Proxy} {a : Action} {job : Job} {stage : Stage}

/-- The invariant is about the directory, the loop and the events. -/
theorem Filed.frame (h : Filed plan p) (folder : q.folder = p.folder) (loop : q.loop = p.loop)
    (events : q.events = p.events) : Filed plan q := by
  have hconfig : q.config? = p.config? := by simp only [config?, folder]
  have hlast : q.lastWritten = p.lastWritten := by simp only [lastWritten, loop, events]
  constructor
  · rw [hconfig, hlast, loop]
    exact h.config
  · rw [loop, folder]
    exact h.temporary
  · rw [loop, events]
    exact h.unopened

/-- The loop goes on, and what is in place stays there. -/
theorem Filed.toLoop (h : Filed plan p) (config : q.config? = p.config?)
    (events : q.events = p.events) (unwritten : q.loop.isUnwritten = p.loop.isUnwritten)
    (written : q.loop.written? = p.loop.written?)
    (temporary : ∀ job, q.loop = .working job .renaming →
      ∀ text, q.folder.bind (·.temporary) = some text → text = plan.render job.snapshot)
    (opening : ∀ stage, q.loop = .working .opening stage →
      ∃ stage, p.loop = .working .opening stage) : Filed plan q where
  config hunwritten := by
    rw [config, h.config (unwritten.symm.trans hunwritten), lastWritten, lastWritten, events,
      written]
  temporary := temporary
  unopened stage loop := by
    obtain ⟨stage', loop'⟩ := opening stage loop
    rw [events]
    exact h.unopened stage' loop'

/-- The loop has waited, and does not come to another configuration. -/
theorem Filed.of_waiting (h : Filed plan p) (waiting : p.loop.isWaiting = true)
    (config : q.config? = p.config?) (events : q.events = p.events)
    (unwritten : q.loop.isUnwritten = false) (written : q.loop.written? = none)
    (moving : ∀ job, q.loop ≠ .working job .renaming)
    (opening : ∀ stage, q.loop ≠ .working .opening stage) : Filed plan q := by
  have hwaiting : p.loop.isUnwritten = false ∧ p.loop.written? = none := by
    rcases isWaiting_iff.mp waiting with loop | ⟨openedAt, latestAt, rs, loop⟩
    all_goals
      rw [loop]
      exact ⟨rfl, rfl⟩
  refine h.toLoop config events ?_ ?_ (fun job loop => absurd loop (moving job))
    fun stage loop => absurd loop (opening stage)
  · rw [unwritten, hwaiting.1]
  · rw [written, hwaiting.2]

/-- A reload begins. -/
theorem Filed.begin (h : Filed plan p) (waiting : p.loop.isWaiting = true) {rs : List Request}
    (config : q.config? = p.config?) (events : q.events = p.events) :
    Filed plan (q.begin now rs) := by
  refine h.of_waiting waiting config events rfl rfl (fun job loop => ?_) fun stage loop => ?_
  · cases loop
  · cases loop

/-- The job goes on to a stage that leaves the file in place. -/
theorem Filed.proceed {next : Stage} (h : Filed plan p) (loop : p.loop = .working job stage)
    (loop' : q.loop = .working job next) (config : q.config? = p.config?)
    (events : q.events = p.events)
    (unwritten : (Loop.working job next).isUnwritten = (Loop.working job stage).isUnwritten)
    (written : (Loop.working job next).written? = (Loop.working job stage).written?)
    (temporary : next = .renaming →
      ∀ text, q.folder.bind (·.temporary) = some text → text = plan.render job.snapshot) :
    Filed plan q := by
  refine h.toLoop config events ?_ ?_ (fun job' hloop => ?_) fun stage' hloop => ?_
  · rw [loop, loop', unwritten]
  · rw [loop, loop', written]
  · rw [loop'] at hloop
    cases hloop
    exact temporary rfl
  · rw [loop'] at hloop
    cases hloop
    exact ⟨stage, loop⟩

@[simp] theorem ofList_toList (s : PortSet) : PortSet.ofList s.toList = s := by
  ext port
  simp

/-- The last event whose configuration was written counts. -/
theorem published_cons_of_wrote {e : Event} {events : List Event} (h : e.wrote = true) :
    published (e :: events) = .ofList e.backends := by
  rw [published, List.find?_cons_of_pos h]

/-- An event whose configuration was not written is passed over. -/
theorem published_cons_of_not_wrote {e : Event} {events : List Event} (h : e.wrote = false) :
    published (e :: events) = published events := by
  have hnot : ¬ e.wrote = true := by
    rw [h]
    exact Bool.false_ne_true
  rw [published, List.find?_cons_of_neg hnot, published]

/-- A job that fails before the start of its instance leaves the configuration that was in place. -/
theorem Filed.fail (h : Filed plan p) (loop : p.loop = .working job stage)
    (written : p.loop.written? = none) {replaces : Option InstanceId} {failure : Failure}
    (early : ∀ reason, failure ≠ .handoff reason) (config : q.config? = p.config?)
    (events : q.events = p.events) :
    Filed plan (q.conclude now job replaces (some failure)) := by
  cases job with
  | opening => exact ⟨nofun, nofun, nofun⟩
  | reload r =>
    refine ⟨fun _ => ?_, nofun, nofun⟩
    have hbefore : p.loop.isUnwritten = false := by
      rw [loop]
      rfl
    -- Among the failures only that of a handoff is of a configuration that was written.
    have hwrote : Event.wrote ⟨r.generation, r.snapshot.toList, q.current, replaces, some failure,
        now⟩ = false := by
      unfold Event.wrote
      split
      next hnone => cases hnone
      next reason hsome => exact absurd (Option.some.inj hsome) (early reason)
      next => rfl
    have hlast : Proxy.lastWritten (q.conclude now (.reload r) replaces (some failure)) =
        p.lastWritten := by
      show published (_ :: q.events) = _
      rw [published_cons_of_not_wrote hwrote, events, lastWritten, written]
      rfl
    rw [hlast, ← h.config hbefore]
    exact config

/-- A job whose configuration is in place ends, and leaves it there. -/
theorem Filed.conclude (h : Filed plan p) (loop : p.loop = .working job stage)
    (written : p.loop.written? = some job.snapshot) {replaces : Option InstanceId}
    {failure : Option Failure} (late : ∀ f, failure = some f → ∃ g, f = job.startFailure g)
    (config : q.config? = p.config?) (events : q.events = p.events) :
    Filed plan (q.conclude now job replaces failure) := by
  have hbefore : p.loop.isUnwritten = false := by
    rw [loop] at written ⊢
    cases stage with
    | starting | settling => cases job <;> rfl
    | _ => cases written
  -- The job itself has put its configuration in place before.
  have hplace : q.config? = some (plan.render job.snapshot) := by
    rw [config, h.config hbefore, lastWritten, written]
    rfl
  cases job with
  | opening =>
    cases failure with
    | some f => exact ⟨nofun, nofun, nofun⟩
    | none =>
      refine ⟨fun _ => ?_, nofun, nofun⟩
      have hlast : Proxy.lastWritten (q.conclude now .opening replaces none) = .empty := by
        show published q.events = _
        rw [events, h.unopened stage loop]
        rfl
      rw [hlast]
      exact hplace
  | reload r =>
    refine ⟨fun _ => ?_, nofun, nofun⟩
    have hwrote : Event.wrote ⟨r.generation, r.snapshot.toList, q.current, replaces, failure,
        now⟩ = true := by
      cases failure with
      | none => rfl
      | some f =>
        obtain ⟨g, rfl⟩ := late f rfl
        rfl
    have hlast : Proxy.lastWritten (q.conclude now (.reload r) replaces failure) = r.snapshot := by
      show published (_ :: q.events) = _
      rw [published_cons_of_wrote hwrote]
      exact ofList_toList r.snapshot
    rw [hlast]
    exact hplace

/-- The file in place stays the one that was put there last. -/
theorem Filed.step (h : Filed plan p) (samePlan : p.plan = plan) (closings : p.closings = [])
    (ha : ∀ folder, a ≠ .tamper folder) (t : Transition now p a q) : Filed plan q := by
  cases t with
  | register | deregister => exact h.frame (folder_request _) (loop_request _) (events_request _)
  | request => exact h.frame (folder_request p) (loop_request p) (events_request p)
  | reloadNow =>
    rw [reloadNow_eq]
    exact h.frame rfl rfl rfl
  | tamper folder => exact absurd rfl (ha folder)
  | openBurst _ _ _ loop | prolong _ _ _ _ _ _ loop =>
    rw [refill_eq]
    exact h.of_waiting (by rw [loop]; rfl) rfl rfl rfl rfl nofun nofun
  | answer _ _ _ loop | endBurst _ _ _ _ _ _ loop =>
    rw [refill_eq]
    exact h.begin (by rw [loop]; rfl) rfl rfl
  | expire _ _ _ loop => exact h.begin (by rw [loop]; rfl) rfl rfl
  | halt _ loop => exact h.of_waiting (isWaiting_iff.mpr loop) rfl rfl rfl rfl nofun nofun
  | prepare job loop =>
    apply h.proceed loop rfl
    · cases hfolder : p.folder <;> simp [config?, hfolder]
    · rfl
    · cases job <;> rfl
    · rfl
    · exact nofun
  | write job folder loop there =>
    apply h.proceed loop rfl
    · simp [config?, there]
    · rfl
    · cases job <;> rfl
    · rfl
    · intro _ text htext
      cases htext
      rw [samePlan]
  -- The text that is moved is the one that was written.
  | rename job text loop there =>
    refine ⟨fun _ => ?_, nofun, fun stage hstage => ?_⟩
    · show some text = some (plan.render job.snapshot)
      rw [h.temporary job loop text there]
    · cases hstage
      exact h.unopened _ loop
  | spawn job pid settle loop =>
    apply h.proceed loop rfl
    · rfl
    · rfl
    · cases job <;> rfl
    · rfl
    · exact nofun
  | prepareFails job e loop => exact h.fail loop (by rw [loop]; rfl) nofun rfl rfl
  | writeFails job folder e left loop there =>
    exact h.fail loop (by rw [loop]; rfl) nofun (by simp [config?, there]) rfl
  | writeNowhere job fault loop => exact h.fail loop (by rw [loop]; rfl) nofun rfl rfl
  | renameFails job fault e loop => exact h.fail loop (by rw [loop]; rfl) nofun rfl rfl
  | refuse job e loop =>
    refine h.conclude loop (by rw [loop]; rfl) (fun f hf => ?_) rfl rfl
    exact ⟨_, (Option.some.inj hf).symm⟩
  | succeed job i due process loop =>
    rw [takeOver_eq]
    exact h.conclude loop (by rw [loop]; rfl) nofun rfl rfl
  | failEarly job i due process outcome loop =>
    refine h.conclude loop (by rw [loop]; rfl) (fun f hf => ?_) rfl rfl
    exact ⟨_, (Option.some.inj hf).symm⟩
  | clear c closing | forgo c _ _ closing =>
    rw [closings] at closing
    cases closing
  | _ => exact h.frame rfl rfl rfl

end Steps

/-- Neither the call of a shutdown, nor somebody else in the directory. -/
def Action.IsUndisturbed (a : Action) : Prop := a ≠ .shutdown ∧ ∀ folder, a ≠ .tamper folder

/-- The invariant holds in every run before the shutdown in which nobody else changes the
directory, whatever was there at first. -/
theorem Filed.of_reach {plan : Plan} {folder : Option Folder} {now : Time} {p : Proxy}
    (h : machine.Reach Action.IsUndisturbed { plan, folder } now p) : Filed plan p := by
  induction h with
  | start => exact ⟨nofun, nofun, fun _ _ => rfl⟩
  | act hreach ha hs ih =>
    have hp := Handoffs.of_reach (hreach.mono fun _ hb => hb.1)
    exact ih.step hp.samePlan hp.closings ha.2 (transition_of_step hs)
  | tick _ _ ih => exact ih

end OnionPool.Proxy
