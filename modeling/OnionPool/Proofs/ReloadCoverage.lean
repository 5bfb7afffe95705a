import OnionPool.Proofs.ConfigText
import OnionPool.Proofs.ProxyTransition
import OnionPool.Proofs.Runs

/-!
# No change of the registry is lost

Requests for reloads are dropped when their place is taken, and come while a reload is under way
whose snapshot was taken already. Still every change of the registry is taken over: as long as the
registry differs from the latest snapshot, a request is in the place or a burst is open.

## Structure

- `Covered` is the invariant of the requests. It needs the registry to change by registrations and
  deregistrations only, and no shutdown.
- `Faithful` is the invariant of the configuration file, from its rendering to the instance that is
  started on it. It needs the directory to be left alone, too.
- `no_change_is_lost` puts both together, with the reading of rendered configurations.
-/

namespace OnionPool.Proxy

/-- The registry that the latest reload took over; without reloads there are no backends. -/
def lastSnapshot (p : Proxy) : PortSet :=
  match p.reloads with
  | [] => .empty
  | r :: _ => r.snapshot

/-- The actions of a run before the shutdown in which every change of the registry comes with a
request. -/
def Action.IsAnnounced : Action → Prop
  | insert _ | remove _ | shutdown => False
  | _ => True

/-! ## The invariant of the requests -/

structure Covered (p : Proxy) : Prop where
  notStopped : p.stop = false ∧ p.loop ≠ .stopped
  unopened : p.isUp = false → p.registry = .empty ∧ p.reloads = []
  covered : p.registry = p.lastSnapshot ∨ p.slot.isSome = true ∨ p.state = .pending

section Coverage

variable {now : Time} {p q : Proxy} {job : Job} {stage : Stage}

theorem isStopped_eq_false (up : p.isUp = true) (h : p.loop ≠ .stopped) : p.isStopped = false := by
  unfold isStopped
  split
  next hloop => exact absurd hloop h
  -- The loop fails only before the first instance has taken over.
  next f hloop => simp [isUp, hloop] at up
  all_goals rfl

/-- After a request the place is taken. -/
theorem isSome_slot_request (h : p.isStopped = false) : p.request.slot.isSome = true := by
  unfold request
  split
  next hfull => simpa [h] using hfull
  next => rfl

/-- After an immediate request the place is taken. -/
theorem isSome_slot_reloadNow (h : p.isStopped = false) : p.reloadNow.slot.isSome = true := by
  unfold reloadNow
  rw [h, if_neg (by decide)]
  dsimp only
  split
  next hfull => exact hfull
  next => rfl

/-- With a request in the place everything is covered, whatever the registry is. -/
theorem Covered.of_slot (h : Covered p) (up : p.isUp = true) (slot : q.slot.isSome = true)
    (stop : q.stop = p.stop) (loop : q.loop = p.loop) : Covered q where
  notStopped := by rw [stop, loop]; exact h.notStopped
  unopened hq := by
    have hup : q.isUp = p.isUp := by simp only [isUp, loop]
    rw [hup, up] at hq
    cases hq
  covered := .inr (.inl slot)

/-- After a request everything is covered. -/
theorem Covered.request (h : Covered p) (up : p.isUp = true) (stop : q.stop = p.stop)
    (loop : q.loop = p.loop) : Covered q.request := by
  have hq : q.isStopped = p.isStopped := by simp only [isStopped, loop]
  have hfull : q.request.slot.isSome = true :=
    isSome_slot_request (hq.trans (isStopped_eq_false up h.notStopped.2))
  have hstop : q.request.stop = q.stop := by rw [request_eq]
  exact h.of_slot up hfull (hstop.trans stop) ((loop_request q).trans loop)

/-- After an immediate request everything is covered. -/
theorem Covered.reloadNow (h : Covered p) (up : p.isUp = true) : Covered p.reloadNow := by
  have hfull : p.reloadNow.slot.isSome = true :=
    isSome_slot_reloadNow (isStopped_eq_false up h.notStopped.2)
  have hstop : p.reloadNow.stop = p.stop := by rw [reloadNow_eq]
  exact h.of_slot up hfull hstop (loop_reloadNow p)

/-- The snapshot of a reload is the registry. -/
theorem Covered.begin (h : p.stop = false) (rs : List Request) : Covered (p.begin now rs) where
  notStopped := ⟨h, by simp [Proxy.begin]⟩
  unopened hq := by simp [Proxy.begin, isUp] at hq
  covered := .inl rfl

/-- While an instance is put in place, no burst is open, so a request is in the place unless the
registry was taken over. -/
theorem Covered.of_working (h : Covered p) (loop : p.loop = .working job stage) :
    p.registry = p.lastSnapshot ∨ p.slot.isSome = true := by
  rcases h.covered with hc | hc | hc
  · exact .inl hc
  · exact .inr hc
  · cases job <;> simp [state, loop] at hc

/-- A job goes on to its next stage. -/
theorem Covered.proceed (h : Covered p) (loop : p.loop = .working job stage) (next : Stage)
    (registry : q.registry = p.registry) (reloads : q.reloads = p.reloads)
    (slot : q.slot = p.slot) (stop : q.stop = p.stop) (loop' : q.loop = .working job next) :
    Covered q where
  notStopped := by rw [stop, loop']; exact ⟨h.notStopped.1, by simp⟩
  unopened hq := by
    have hup : q.isUp = p.isUp := by cases job <;> simp only [isUp, loop, loop']
    rw [registry, reloads]
    exact h.unopened (hup ▸ hq)
  covered := by
    have hlast : q.lastSnapshot = p.lastSnapshot := by simp only [lastSnapshot, reloads]
    rw [registry, hlast, slot]
    exact (h.of_working loop).imp_right .inl

/-- The end of a job leaves covered what was. -/
theorem Covered.conclude (h : Covered p) (loop : p.loop = .working job stage)
    (replaces : Option InstanceId) (failure : Option Failure) :
    Covered (p.conclude now job replaces failure) := by
  rcases job with _ | r
  · -- Before the first instance has taken over nothing could be registered.
    have hp : p.registry = .empty ∧ p.reloads = [] := h.unopened (by simp [isUp, loop])
    have hlast : p.registry = p.lastSnapshot := by simp only [lastSnapshot, hp.1, hp.2]
    cases failure with
    | none => exact ⟨⟨h.notStopped.1, by simp [Proxy.conclude]⟩, fun _ => hp, .inl hlast⟩
    | some f => exact ⟨⟨h.notStopped.1, by simp [Proxy.conclude]⟩, fun _ => hp, .inl hlast⟩
  · exact ⟨⟨h.notStopped.1, by simp [Proxy.conclude]⟩,
      fun hq => by simp [Proxy.conclude, isUp] at hq, (h.of_working loop).imp_right .inl⟩

/-- The invariant of the requests is kept by every step. -/
theorem Covered.step {a : Action} (h : Covered p) (ha : a.IsAnnounced)
    (hs : p.step now a = some q) : Covered q := by
  have hstop := h.notStopped.1
  cases transition_of_step hs with
  | register port up => exact h.request up rfl rfl
  | deregister port up => exact h.request up rfl rfl
  | request up => exact h.request up rfl rfl
  | reloadNow up => exact h.reloadNow up
  | insert | remove | shutdown => exact absurd ha id
  -- A burst is open from here on, and that covers every change.
  | openBurst | prolong =>
    refine ⟨⟨(stop_refill p).trans hstop, ?_⟩, ?_, .inr (.inr rfl)⟩
    · intro hq; cases hq
    · intro hq; cases hq
  -- A reload begins, and its snapshot is the registry.
  | answer | endBurst => exact .begin ((stop_refill p).trans hstop) _
  | expire openedAt latestAt rs loop due => exact .begin hstop _
  | halt stop => rw [hstop] at stop; cases stop
  -- The snapshot stays, and so does the request that covers what came after it.
  | prepare job loop => exact h.proceed loop .writing rfl rfl rfl rfl rfl
  | write job folder loop => exact h.proceed loop .renaming rfl rfl rfl rfl rfl
  | rename job text loop => exact h.proceed loop .starting rfl rfl rfl rfl rfl
  | spawn job pid settle loop => exact h.proceed loop _ rfl rfl rfl rfl rfl
  -- The loop is idle again; a change since the snapshot still has its request.
  | prepareFails job e loop => exact h.conclude loop _ _
  | writeNowhere job fault loop => exact h.conclude loop _ _
  | renameFails job fault e loop => exact h.conclude loop _ _
  | failEarly job i due process outcome loop => exact h.conclude loop _ _
  | writeFails job folder e left loop | refuse job e loop =>
    apply Covered.conclude
    · exact ⟨h.notStopped, h.unopened, h.covered⟩
    · exact loop
  | succeed job i due process loop =>
    rw [takeOver_eq]
    apply Covered.conclude
    · exact ⟨h.notStopped, h.unopened, h.covered⟩
    · exact loop
  | tamper | endGrace | forget | join | killNext | skipNext | killed | clear | forgo | process =>
    exact ⟨h.notStopped, h.unopened, h.covered⟩

/-- The invariant of the requests holds in every run in which changes are announced. -/
theorem Covered.of_reach {plan : Plan} (h : machine.Reach Action.IsAnnounced { plan } now p) :
    Covered p :=
  h.induct (P := fun _ p => Covered p)
    ⟨⟨rfl, by simp⟩, fun _ => ⟨rfl, rfl⟩, .inl rfl⟩
    (fun ih ha hs => ih.step ha hs) fun ih _ => ih

end Coverage

/-! ## The invariant of the configuration -/

/-- The configuration that an instance was started on. -/
def startedOn? (p : Proxy) (i : InstanceId) : Option String := p.starts[i]?.bind (·.config)

/-- The configuration that the current instance was started on. -/
def servingConfig (p : Proxy) : Option String := p.current.bind p.startedOn?

/-- How far a text has come, at the stages of a job: from the temporary file into the configuration,
and from there to the new instance. -/
def Carries (p : Proxy) (text : String) : Stage → Prop
  | .preparing | .writing => True
  | .renaming => p.folder.bind (·.temporary) = some text
  | .starting => p.folder.bind (·.config) = some text
  | .settling i _ => p.startedOn? i = some text

structure Faithful (p : Proxy) : Prop where
  notClosing : p.closings = []
  carried : ∀ job stage, p.loop = .working job stage →
    p.Carries (p.plan.render job.snapshot) stage
  latest : ∀ r stage, p.loop = .working (.reload r) stage → p.reloads.head? = some r
  opened : p.isUp = true → p.reloads = [] → p.servingConfig = some (p.plan.render .empty)
  outcome : p.isUp = true → p.state ≠ .reloading → ∀ r, p.reloads.head? = some r →
    ∃ e, p.events.head? = some e ∧ e.generation = r.generation ∧
      (e.failure = none → p.servingConfig = some (p.plan.render r.snapshot))

/-- The actions of a run in which, besides, nobody else changes the directory. -/
def Action.IsTidy (a : Action) : Prop := a.IsAnnounced ∧ ∀ folder, a ≠ .tamper folder

section Configuration

variable {now : Time} {p q : Proxy} {job : Job} {stage : Stage}

/-- A change of its process does not change what an instance was started on. -/
@[simp] theorem startedOn?_setProcess (p : Proxy) (i j : InstanceId) (process : Process) :
    (p.setProcess i process).startedOn? j = p.startedOn? j := by
  unfold startedOn? setProcess
  rw [List.getElem?_modify]
  cases p.starts[j]? with
  | none => rfl
  | some s => by_cases h : i = j <;> simp [h]

/-- The invariant is about the loop, the files, and what the instances were started on. -/
theorem Faithful.frame (h : Faithful p) (plan : q.plan = p.plan) (loop : q.loop = p.loop)
    (folder : q.folder = p.folder) (started : ∀ i, q.startedOn? i = p.startedOn? i)
    (current : q.current = p.current) (closings : q.closings = p.closings)
    (reloads : q.reloads = p.reloads) (events : q.events = p.events) : Faithful q := by
  have hconfig : q.servingConfig = p.servingConfig := by
    unfold servingConfig
    rw [current, funext started]
  have hup : q.isUp = p.isUp := by simp only [isUp, loop]
  have hstate : q.state = p.state := by simp only [state, loop]
  constructor
  case notClosing => rw [closings]; exact h.notClosing
  case carried =>
    intro job stage hloop
    have hp := h.carried job stage (loop ▸ hloop)
    rw [plan]
    cases stage with
    | preparing | writing => trivial
    | settling i due => simpa only [Carries, started] using hp
    | _ => simpa only [Carries, folder] using hp
  case latest => rw [loop, reloads]; exact h.latest
  case opened => rw [hup, reloads, hconfig, plan]; exact h.opened
  case outcome => rw [hup, hstate, reloads, events, hconfig, plan]; exact h.outcome

/-- While no job is under way, only the configuration of the current instance matters. -/
theorem Faithful.of_rest (rest : ∀ job stage, q.loop ≠ .working job stage)
    (closings : q.closings = [])
    (opened : q.isUp = true → q.reloads = [] → q.servingConfig = some (q.plan.render .empty))
    (outcome : q.isUp = true → ∀ r, q.reloads.head? = some r →
      ∃ e, q.events.head? = some e ∧ e.generation = r.generation ∧
        (e.failure = none → q.servingConfig = some (q.plan.render r.snapshot))) : Faithful q where
  notClosing := closings
  carried job stage hloop := absurd hloop (rest job stage)
  latest r stage hloop := absurd hloop (rest (.reload r) stage)
  opened := opened
  outcome hup _ := outcome hup

/-- Outside of a reload a new state of the loop changes nothing. -/
theorem Faithful.wait (h : Faithful p) (rest : ∀ job stage, q.loop ≠ .working job stage)
    (up : p.isUp = true) (idle : p.state ≠ .reloading) (plan : q.plan = p.plan)
    (started : ∀ i, q.startedOn? i = p.startedOn? i) (current : q.current = p.current)
    (closings : q.closings = p.closings) (reloads : q.reloads = p.reloads)
    (events : q.events = p.events) : Faithful q := by
  have hconfig : q.servingConfig = p.servingConfig := by
    unfold servingConfig
    rw [current, funext started]
  apply Faithful.of_rest rest
  · exact closings.trans h.notClosing
  · intro _
    rw [reloads, hconfig, plan]
    exact h.opened up
  · intro _
    rw [reloads, events, hconfig, plan]
    exact h.outcome up idle

/-- A reload starts without anything written yet. -/
theorem Faithful.begin (h : Faithful p) (rs : List Request) : Faithful (p.begin now rs) := by
  constructor
  case notClosing => exact h.notClosing
  case carried => intro job stage hloop; cases hloop; trivial
  case latest => intro r stage hloop; cases hloop; rfl
  case opened => intro _ hq; cases hq
  case outcome => intro _ hq; exact absurd rfl hq

/-- A job goes on to its next stage with the text carried along. -/
theorem Faithful.proceed (h : Faithful p) (loop : p.loop = .working job stage) (next : Stage)
    (loop' : q.loop = .working job next) (plan : q.plan = p.plan)
    (carried : q.Carries (p.plan.render job.snapshot) next) (closings : q.closings = p.closings)
    (reloads : q.reloads = p.reloads) : Faithful q := by
  constructor
  case notClosing => rw [closings]; exact h.notClosing
  case carried =>
    intro job' stage' hloop
    rw [loop'] at hloop
    cases hloop
    rw [plan]; exact carried
  case latest =>
    intro r stage' hloop
    rw [loop'] at hloop
    cases hloop
    rw [reloads]; exact h.latest r stage loop
  case opened =>
    -- Only a reload can be under way once the first instance has taken over.
    intro hup hq
    rcases job with _ | r
    · simp [isUp, loop'] at hup
    · have hlatest := h.latest r stage loop
      rw [reloads] at hq
      rw [hq] at hlatest
      cases hlatest
  case outcome =>
    intro hup hstate
    rcases job with _ | r
    · simp [isUp, loop'] at hup
    · exact absurd (by simp [state, loop']) hstate

/-- A job that has failed leaves the current instance as it is. -/
theorem Faithful.fail (h : Faithful p) (loop : p.loop = .working job stage)
    (replaces : Option InstanceId) (f : Failure) :
    Faithful (p.conclude now job replaces (some f)) := by
  rcases job with _ | r
  · -- Without a first instance nothing can be asked of the proxy.
    apply Faithful.of_rest
    · intro job stage hloop; cases hloop
    · exact h.notClosing
    · intro hup; cases hup
    · intro hup; cases hup
  · have hlatest := h.latest r stage loop
    apply Faithful.of_rest
    · intro job stage hloop; cases hloop
    · exact h.notClosing
    · intro _ (hq : p.reloads = [])
      rw [hq] at hlatest
      cases hlatest
    · intro _ r' (hr : p.reloads.head? = some r')
      rw [hlatest] at hr
      cases hr
      exact ⟨_, rfl, rfl, fun hnone => by cases hnone⟩

/-- When a job has succeeded, the new instance serves what was rendered for the job. -/
theorem Faithful.succeed (h : Faithful p) (hopen : p.isUp = false → p.reloads = [])
    {i : InstanceId} {due : Time} (loop : p.loop = .working job (.settling i due))
    (replaces : Option InstanceId) :
    Faithful ((p.takeOver now i).conclude now job replaces none) := by
  have hserves : p.startedOn? i = some (p.plan.render job.snapshot) := h.carried job _ loop
  rw [takeOver_eq]
  -- After the opening there is no reload to be behind; a reload is the last that began.
  rcases job with _ | r
  · have hnone : p.reloads = [] := hopen (by simp [isUp, loop])
    apply Faithful.of_rest
    · intro job stage hloop; cases hloop
    · exact h.notClosing
    · exact fun _ _ => hserves
    · intro _ r (hr : p.reloads.head? = some r)
      rw [hnone] at hr
      cases hr
  · have hlatest : p.reloads.head? = some r := h.latest r _ loop
    apply Faithful.of_rest
    · intro job stage hloop; cases hloop
    · exact h.notClosing
    · intro _ (hq : p.reloads = [])
      rw [hq] at hlatest
      cases hlatest
    · intro _ r' (hr : p.reloads.head? = some r')
      rw [hlatest] at hr
      cases hr
      exact ⟨_, rfl, rfl, fun _ => hserves⟩

theorem Faithful.refill (h : Faithful p) : Faithful p.refill := by
  rw [refill_eq]
  exact h.frame rfl rfl rfl (fun _ => rfl) rfl rfl rfl rfl

theorem Faithful.request (h : Faithful p) : Faithful p.request := by
  rw [request_eq]
  exact h.frame rfl rfl rfl (fun _ => rfl) rfl rfl rfl rfl

theorem Faithful.reloadNow (h : Faithful p) : Faithful p.reloadNow := by
  rw [reloadNow_eq]
  exact h.frame rfl rfl rfl (fun _ => rfl) rfl rfl rfl rfl

/-- The invariant of the configuration is kept by every step. -/
theorem Faithful.step {a : Action} (h : Faithful p) (hc : Covered p) (ha : a.IsTidy)
    (hs : p.step now a = some q) : Faithful q := by
  have hopen : p.isUp = false → p.reloads = [] := fun hup => (hc.unopened hup).2
  cases transition_of_step hs with
  | register port =>
    have h' : Faithful (p.insert port) := h.frame rfl rfl rfl (fun _ => rfl) rfl rfl rfl rfl
    exact h'.request
  | deregister port =>
    have h' : Faithful (p.remove port) := h.frame rfl rfl rfl (fun _ => rfl) rfl rfl rfl rfl
    exact h'.request
  | request => exact h.request
  | reloadNow => exact h.reloadNow
  | insert | remove | shutdown => exact absurd ha.1 id
  | tamper folder => exact absurd rfl (ha.2 folder)
  | openBurst r _ _ loop =>
    refine h.refill.wait ?_ ?_ ?_ rfl (fun _ => rfl) rfl rfl rfl rfl
    · intro job stage hloop; cases hloop
    · simp [isUp, loop]
    · simp [state, loop]
  | prolong r openedAt latestAt rs _ _ loop =>
    refine h.refill.wait ?_ ?_ ?_ rfl (fun _ => rfl) rfl rfl rfl rfl
    · intro job stage hloop; cases hloop
    · simp [isUp, loop]
    · simp [state, loop]
  | answer r | endBurst r => exact h.refill.begin _
  | expire => exact h.begin _
  | halt stop loop =>
    refine h.wait ?_ ?_ ?_ rfl (fun _ => rfl) rfl rfl rfl rfl
    · intro job stage hloop; cases hloop
    · rcases loop with loop | ⟨openedAt, latestAt, rs, loop⟩ <;> simp [isUp, loop]
    · rcases loop with loop | ⟨openedAt, latestAt, rs, loop⟩ <;> simp [state, loop]
  | prepare job loop => exact h.proceed loop .writing rfl rfl trivial rfl rfl
  | write job folder loop there => exact h.proceed loop .renaming rfl rfl rfl rfl rfl
  | rename job text loop there =>
    -- The temporary file holds what was rendered, and becomes the configuration.
    have htext : p.folder.bind (·.temporary) = _ := h.carried job _ loop
    exact h.proceed loop .starting rfl rfl (there ▸ htext) rfl rfl
  | spawn job pid settle loop =>
    -- The new instance reads the configuration that the job has written.
    have htext : p.folder.bind (·.config) = _ := h.carried job _ loop
    refine h.proceed loop _ rfl rfl ?_ rfl rfl
    simpa [Carries, startedOn?] using htext
  | prepareFails job e loop => exact h.fail loop _ _
  | writeNowhere job fault loop => exact h.fail loop _ _
  | renameFails job fault e loop => exact h.fail loop _ _
  | failEarly job i due process outcome loop => exact h.fail loop _ _
  | writeFails job folder e left loop =>
    have h' : Faithful { p with folder := some { folder with temporary := some left } } :=
      h.proceed loop .writing loop rfl trivial rfl rfl
    exact h'.fail loop _ _
  | refuse job e loop =>
    have htext : p.folder.bind (·.config) = _ := h.carried job _ loop
    have h' : Faithful { p with
        starts := p.starts ++ [⟨p.current, p.folder.bind (·.config), none⟩] } :=
      h.proceed loop .starting loop rfl htext rfl rfl
    exact h'.fail loop _ _
  | succeed job i due process loop => exact h.succeed hopen loop _
  -- What happens to other instances concerns neither the files nor the current one.
  | forget => exact h.frame rfl rfl rfl (fun _ => rfl) rfl rfl rfl rfl
  | endGrace i g process =>
    exact h.frame rfl rfl rfl (fun j => startedOn?_setProcess p i j _) rfl rfl rfl rfl
  | process i a process process' =>
    exact h.frame rfl rfl rfl (fun j => startedOn?_setProcess p i j _) rfl rfl rfl rfl
  -- Without a shutdown none of its steps can be taken.
  | join c closing | killNext c _ _ _ closing | skipNext c _ _ closing | killed c _ _ _ closing
  | clear c closing | forgo c _ _ closing =>
    rw [h.notClosing] at closing
    cases closing

/-- The invariant of the configuration holds in every run in which nobody else changes the
directory. -/
theorem Faithful.of_reach {plan : Plan} (h : machine.Reach Action.IsTidy { plan } now p) :
    Covered p ∧ Faithful p := by
  refine h.induct (P := fun _ p => Covered p ∧ Faithful p) ⟨?_, ?_⟩ ?_ fun ih _ => ih
  · have hstart : machine.Reach Action.IsAnnounced { plan } 0 { plan } := .start
    exact .of_reach hstart
  · constructor
    case notClosing => rfl
    case carried => intro job stage hloop; cases hloop; trivial
    case latest => intro r stage hloop; cases hloop
    case opened => intro hup; cases hup
    case outcome => intro hup; cases hup
  · intro now s s' a ih ha hs
    exact ⟨ih.1.step ha.1 hs, ih.2.step ih.1 ha hs⟩

end Configuration

/-! ## Nothing is lost -/

/-- **No change is lost**: as long as the registry differs from the latest snapshot, a request is in
the place or a burst is open. So when the loop is idle and the place is empty, the latest snapshot
is the registry; and if the directory was left alone and the latest reload has succeeded, then
exactly the registry is read from the configuration that the current instance was started on. -/
theorem no_change_is_lost {plan : Plan} {now : Time} {p : Proxy}
    (h : machine.Reach Action.IsAnnounced { plan } now p) :
    (p.registry ≠ p.lastSnapshot → p.slot.isSome = true ∨ p.state = .pending) ∧
    (p.state = .idle → p.slot = none → p.lastSnapshot = p.registry) ∧
    (machine.Reach Action.IsTidy { plan } now p → p.state = .idle → p.slot = none →
      ∀ r, p.reloads.head? = some r → r.snapshot = p.registry ∧
        ∃ e, p.events.head? = some e ∧ e.generation = r.generation ∧
          (e.failure = none → ∃ i s text, p.current = some i ∧ p.starts[i]? = some s ∧
            s.config = some text ∧ renderedBackends text = p.registry.toList)) := by
  have hc := Covered.of_reach h
  have hlast : p.state = .idle → p.slot = none → p.lastSnapshot = p.registry := by
    intro hidle hslot
    -- An idle loop with an empty place leaves only the first of the three cases.
    rcases hc.covered with hreg | hfull | hpending
    · exact hreg.symm
    · rw [hslot] at hfull; cases hfull
    · rw [hidle] at hpending; cases hpending
  refine ⟨fun hne => hc.covered.resolve_left hne, hlast, fun htidy hidle hslot r hr => ?_⟩
  have hf := (Faithful.of_reach htidy).2
  have hsnap : r.snapshot = p.registry := by
    rw [← hlast hidle hslot, lastSnapshot]
    cases hreloads : p.reloads with
    | nil => rw [hreloads] at hr; cases hr
    | cons r' rest => rw [hreloads] at hr; cases hr; rfl
  -- No reload starts before the first instance has taken over.
  have hup : p.isUp = true := by
    cases hup : p.isUp with
    | true => rfl
    | false => rw [(hc.unopened hup).2] at hr; cases hr
  obtain ⟨e, he, hgen, hserves⟩ := hf.outcome hup (by rw [hidle]; decide) r hr
  refine ⟨hsnap, e, he, hgen, fun hok => ?_⟩
  -- The current instance was started on what was rendered for the latest snapshot.
  obtain ⟨i, hi, hstarted⟩ := Option.bind_eq_some_iff.mp (hserves hok)
  obtain ⟨s, hs, hconfig⟩ := Option.bind_eq_some_iff.mp hstarted
  refine ⟨i, s, _, hi, hs, hconfig, ?_⟩
  rw [Plan.render, renderedBackends_render, Layout.ofSettings, hsnap]

/-- A proxy whose bursts end at once. -/
def promptPlan : Plan := ⟨⟨8080, none, 256, .roundRobin⟩, ⟨0, 100, 1⟩, "haproxy"⟩

/-- Two registrations, the second one during the reload that answers the first one. -/
def overlap : List Action := [
  .prepare none, .write none, .rename none, .spawn 1 0, .judge,
  .register 30001, .receive, .expire, .write none, .register 30002, .rename none, .spawn 2 0,
  .judge, .receive, .expire, .write none, .rename none, .spawn 3 0, .judge]

/-- The proxy after both registrations were taken over. -/
def overlapped : Proxy :=
  (machine.play 0 overlap { plan := promptPlan }).getD { plan := promptPlan }

/-- After both reloads the instance that serves knows both forwarders. -/
theorem no_change_is_lost_in_overlap :
    machine.play 0 overlap { plan := promptPlan } = some overlapped ∧
      overlapped.lastSnapshot = overlapped.registry ∧
      ∃ i s text, overlapped.current = some i ∧ overlapped.starts[i]? = some s ∧
        s.config = some text ∧ renderedBackends text = [30001, 30002] := by
  have hplay : machine.play 0 overlap { plan := promptPlan } = some overlapped := by rfl
  have htidy : machine.Reach Action.IsTidy { plan := promptPlan } 0 overlapped := by
    refine Machine.Reach.append .start (.play .refl ?_ hplay)
    simp [overlap, Action.IsTidy, Action.IsAnnounced]
  obtain ⟨-, hlast, hserves⟩ := no_change_is_lost (htidy.mono fun _ ha => ha.1)
  obtain ⟨-, e, he, -, hread⟩ := hserves htidy (by rfl) (by rfl) _ rfl
  obtain ⟨i, s, text, hi, hs, htext, hbackends⟩ := hread (by cases he; rfl)
  exact ⟨hplay, hlast (by rfl) (by rfl), i, s, text, hi, hs, htext, hbackends⟩

end OnionPool.Proxy
