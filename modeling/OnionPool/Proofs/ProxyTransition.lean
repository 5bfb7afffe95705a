import OnionPool.Proxy.Step

/-!
# What one step of the reverse proxy can be

Every step of the reverse proxy is one of the transitions below, each with its guard and the state
after it. What is kept by every run is proved from this list, case by case, and never from the step
function itself.

## Structure

- `Transition` lists the steps: the calls from outside, the reload loop, the retirements of replaced
  instances, the shutdown, and what happens to the processes.
- `transition_of_step` says that the list is complete.
- Then it is said which fields the auxiliary functions leave alone, and by
  `Transition.registry_eq` and `Transition.stop_eq` which steps leave the registry and the signal to
  the loop alone. `Transition.isUp` says that a proxy that is up stays so.
- `Action.Obeyed` is what the steps of a system are that does as the proxy asks.
-/

namespace OnionPool.Proxy

/-! ## The transitions -/

/-- The steps of the reverse proxy at a time, from a state, by an action, to a state. -/
inductive Transition (now : Time) (p : Proxy) : Action → Proxy → Prop where
  -- Calls from outside, and other hands in the directory.
  | register (port : Port) (up : p.isUp = true) :
      Transition now p (.register port) (p.register port)
  | deregister (port : Port) (up : p.isUp = true) :
      Transition now p (.deregister port) (p.deregister port)
  | insert (port : Port) (up : p.isUp = true) : Transition now p (.insert port) (p.insert port)
  | remove (port : Port) (up : p.isUp = true) : Transition now p (.remove port) (p.remove port)
  | request (up : p.isUp = true) : Transition now p .request p.request
  | reloadNow (up : p.isUp = true) : Transition now p .reloadNow p.reloadNow
  /-- Any number of calls of the shutdown may be under way. -/
  | shutdown (up : p.isUp = true) : Transition now p .shutdown p.shutdown
  | tamper (folder : Option Folder) : Transition now p (.tamper folder) { p with folder }
  -- The reload loop, and the job that it works on.
  /-- A debounced request opens a burst. -/
  | openBurst (r : Request) (slot : p.slot = some r) (debounced : r.urgency = .debounced)
      (loop : p.loop = .idle) :
      Transition now p .receive { p.refill with loop := .pending now now [r] }
  /-- A debounced request prolongs the burst. -/
  | prolong (r : Request) (openedAt latestAt : Time) (rs : List Request) (slot : p.slot = some r)
      (debounced : r.urgency = .debounced) (loop : p.loop = .pending openedAt latestAt rs) :
      Transition now p .receive { p.refill with loop := .pending openedAt now (r :: rs) }
  /-- An immediate request is answered at once. -/
  | answer (r : Request) (slot : p.slot = some r) (immediate : r.urgency = .immediate)
      (loop : p.loop = .idle) : Transition now p .receive (p.refill.begin now [r])
  /-- An immediate request ends the burst. -/
  | endBurst (r : Request) (openedAt latestAt : Time) (rs : List Request) (slot : p.slot = some r)
      (immediate : r.urgency = .immediate) (loop : p.loop = .pending openedAt latestAt rs) :
      Transition now p .receive (p.refill.begin now (r :: rs))
  | expire (openedAt latestAt : Time) (rs : List Request)
      (loop : p.loop = .pending openedAt latestAt rs)
      (due : deadline p.plan.timings openedAt latestAt ≤ now) :
      Transition now p .expire (p.begin now rs)
  | halt (stop : p.stop = true)
      (loop : p.loop = .idle ∨ ∃ openedAt latestAt rs, p.loop = .pending openedAt latestAt rs) :
      Transition now p .halt { p with loop := .stopped, slot := none, line := [] }
  | prepare (job : Job) (loop : p.loop = .working job .preparing) :
      Transition now p (.prepare none)
        { p with folder := some (p.folder.getD {}), loop := .working job .writing }
  | prepareFails (job : Job) (e : IoError) (loop : p.loop = .working job .preparing) :
      Transition now p (.prepare (some e)) (p.conclude now job none (some (.io e)))
  | write (job : Job) (folder : Folder) (loop : p.loop = .working job .writing)
      (there : p.folder = some folder) :
      Transition now p (.write none)
        { p with
          folder := some { folder with temporary := some (p.plan.render job.snapshot) }
          loop := .working job .renaming }
  | writeFails (job : Job) (folder : Folder) (e : OsError) (left : String)
      (loop : p.loop = .working job .writing) (there : p.folder = some folder) :
      Transition now p (.write (some (e, left)))
        (conclude now job none (some (p.plan.writeFailure (.os e)))
          { p with folder := some { folder with temporary := some left } })
  | writeNowhere (job : Job) (fault : Option (OsError × String))
      (loop : p.loop = .working job .writing) (gone : p.folder = none) :
      Transition now p (.write fault)
        (p.conclude now job none (some (p.plan.writeFailure (.os .notFound))))
  | rename (job : Job) (text : String) (loop : p.loop = .working job .renaming)
      (there : p.folder.bind (·.temporary) = some text) :
      Transition now p (.rename none)
        { p with folder := some ⟨some text, none⟩, loop := .working job .starting }
  | renameFails (job : Job) (fault : Option OsError) (e : OsError)
      (loop : p.loop = .working job .renaming) :
      Transition now p (.rename fault)
        (p.conclude now job none (some (p.plan.writeFailure (.os e))))
  | spawn (job : Job) (pid : Nat) (settle : Time) (loop : p.loop = .working job .starting)
      (unused : pid ∉ p.usedPids) :
      Transition now p (.spawn pid settle)
        { p with
          starts := p.starts ++ [⟨p.current, p.folder.bind (·.config), some (pid, .fresh)⟩]
          loop := .working job (.settling p.starts.length (now + settle)) }
  | refuse (job : Job) (e : IoError) (loop : p.loop = .working job .starting) :
      Transition now p (.refuse e)
        (conclude now job p.current (some (job.startFailure (p.launchFailure e.text)))
          { p with starts := p.starts ++ [⟨p.current, p.folder.bind (·.config), none⟩] })
  /-- The new instance has survived its settle window, and takes over. -/
  | succeed (job : Job) (i : InstanceId) (due : Time) (process : Process)
      (loop : p.loop = .working job (.settling i due)) (there : p.process? i = some process)
      (verdict : process.verdict? now due = some .settled) :
      Transition now p .judge ((p.takeOver now i).conclude now job (p.previous? i) none)
  /-- The new instance has ended in its settle window. -/
  | failEarly (job : Job) (i : InstanceId) (due : Time) (process : Process) (outcome : Outcome)
      (loop : p.loop = .working job (.settling i due)) (there : p.process? i = some process)
      (verdict : process.verdict? now due = some (.failed outcome)) :
      Transition now p .judge
        (p.conclude now job (p.previous? i)
          (some (job.startFailure (p.launchFailure outcome.text))))
  -- The retirements, each for itself.
  | endGrace (i : InstanceId) (g : Grace) (process : Process) (grace : p.grace? i = some g)
      (there : p.process? i = some process) (stage : g.stage = .waiting)
      (due : process.exited?.isSome = true ∨ g.since + p.plan.timings.grace ≤ now) :
      Transition now p (.endGrace i)
        { p.setProcess i process.terminate with
          graces := p.graces.map (·.dismiss i process.nextCall) }
  | forget (i : InstanceId) (g : Grace) (call : CallId) (grace : p.grace? i = some g)
      (stage : g.stage = .terminating call) (terminated : p.isTerminated i call = true) :
      Transition now p (.forget i)
        { p with
          graces := p.graces.filter (·.retired ≠ i)
          retiring := p.retiring.filter (· ≠ i) }
  -- The calls of the shutdown, each for itself.
  /-- Whoever retires or serves is collected; the first call has waited for the loop. -/
  | join (c : ClosingId) (closing : p.closings[c]? = some .joining)
      (free : p.awaitsLoop c = false) :
      Transition now p (.join c)
        { p with
          closings := p.closings.set c (.terminating (p.retiring ++ p.current.toList) none)
          retiring := []
          current := none }
  | killNext (c : ClosingId) (i : InstanceId) (rest : List InstanceId) (process : Process)
      (closing : p.closings[c]? = some (.terminating (i :: rest) none))
      (there : p.process? i = some process) :
      Transition now p (.killNext c)
        { p.setProcess i process.terminate with
          closings := p.closings.set c (.terminating rest (some (i, process.nextCall))) }
  | skipNext (c : ClosingId) (i : InstanceId) (rest : List InstanceId)
      (closing : p.closings[c]? = some (.terminating (i :: rest) none))
      (gone : p.process? i = none) :
      Transition now p (.killNext c)
        { p with closings := p.closings.set c (.terminating rest none) }
  | killed (c : ClosingId) (i : InstanceId) (call : CallId) (rest : List InstanceId)
      (closing : p.closings[c]? = some (.terminating rest (some (i, call))))
      (terminated : p.isTerminated i call = true) :
      Transition now p (.killed c)
        { p with closings := p.closings.set c (.terminating rest none) }
  | clear (c : ClosingId) (closing : p.closings[c]? = some (.terminating [] none)) :
      Transition now p (.clear c) { p with closings := p.closings.set c .closed, folder := none }
  | forgo (c : ClosingId) (left folder : Folder)
      (closing : p.closings[c]? = some (.terminating [] none)) (there : p.folder = some folder) :
      Transition now p (.forgo c left)
        { p with closings := p.closings.set c .closed, folder := some left }
  | process (i : InstanceId) (a : Process.Action) (process process' : Process)
      (there : p.process? i = some process) (notAsked : a ≠ .terminate)
      (step : process.step (p.holds i) now a = some process') :
      Transition now p (.process i a) (p.setProcess i process')

/-! ## Systems that obey -/

/-- The system does what it is asked for: programs can be killed, and the directory be removed. -/
def Action.Obeyed : Action → Prop
  | forgo _ _ => False
  | process _ a => a ≠ .resist
  | _ => True

/-! ## Completeness of the list -/

section Completeness

variable {now : Time} {p q : Proxy}

private theorem call_eq_some {r : Option Proxy} (h : p.call r = some q) :
    p.isUp = true ∧ r = some q := by
  unfold call at h
  split at h
  · exact ⟨‹_›, h⟩
  · cases h

private theorem transition_of_receive (h : p.receive now = some q) :
    Transition now p .receive q := by
  unfold receive at h
  -- The loop tells whether a burst is open, and the urgency of the request what comes of it.
  split at h
  next r hslot hloop =>
    split at h
    next hu => cases h; exact .openBurst r hslot hu hloop
    next hu => cases h; exact .answer r hslot hu hloop
  next r openedAt latestAt rs hslot hloop =>
    split at h
    next hu => cases h; exact .prolong r openedAt latestAt rs hslot hu hloop
    next hu => cases h; exact .endBurst r openedAt latestAt rs hslot hu hloop
  next => cases h

private theorem transition_of_expire (h : p.expire now = some q) :
    Transition now p .expire q := by
  unfold expire at h
  split at h
  next openedAt latestAt rs hloop =>
    split at h
    next hdue => cases h; exact .expire openedAt latestAt rs hloop hdue
    next => cases h
  all_goals cases h

private theorem transition_of_halt (h : p.halt = some q) : Transition now p .halt q := by
  unfold halt at h
  split at h
  next hloop =>
    split at h
    next hstop => cases h; exact .halt hstop (.inl hloop)
    next => cases h
  next openedAt latestAt rs hloop =>
    split at h
    next hstop => cases h; exact .halt hstop (.inr ⟨openedAt, latestAt, rs, hloop⟩)
    next => cases h
  all_goals cases h

private theorem transition_of_prepare {fault : Option IoError} (h : p.prepare now fault = some q) :
    Transition now p (.prepare fault) q := by
  unfold prepare at h
  split at h
  next job hloop =>
    cases fault with
    | none => cases h; exact .prepare job hloop
    | some e => cases h; exact .prepareFails job e hloop
  next => cases h

private theorem transition_of_write {fault : Option (OsError × String)}
    (h : p.write now fault = some q) : Transition now p (.write fault) q := by
  unfold write at h
  split at h
  next job hloop =>
    split at h
    -- Without a directory the write fails, whatever the fault would have been.
    next hgone => cases h; exact .writeNowhere job fault hloop hgone
    next folder hthere =>
      rcases fault with _ | ⟨e, left⟩
      · cases h; exact .write job folder hloop hthere
      · cases h; exact .writeFails job folder e left hloop hthere
  next => cases h

private theorem transition_of_rename {fault : Option OsError} (h : p.rename now fault = some q) :
    Transition now p (.rename fault) q := by
  unfold rename at h
  split at h
  next job hloop =>
    split at h
    -- No temporary file: the rename itself fails.
    next => cases h; exact .renameFails job _ .notFound hloop
    next e hthere => cases h; exact .renameFails job (some e) e hloop
    next text hthere => cases h; exact .rename job text hloop hthere
  next => cases h

private theorem transition_of_spawn {pid : Nat} {settle : Time}
    (h : p.spawn now pid settle = some q) : Transition now p (.spawn pid settle) q := by
  unfold spawn at h
  split at h
  next job hloop =>
    split at h
    next => cases h
    next hunused => cases h; exact .spawn job pid settle hloop (by simpa using hunused)
  next => cases h

private theorem transition_of_refuse {e : IoError} (h : p.refuse now e = some q) :
    Transition now p (.refuse e) q := by
  unfold refuse at h
  split at h
  next job hloop => cases h; exact .refuse job e hloop
  next => cases h

private theorem transition_of_judge (h : p.judge now = some q) : Transition now p .judge q := by
  unfold judge at h
  split at h
  next job i due hloop =>
    split at h
    next hverdict =>
      obtain ⟨process, hthere, hv⟩ := Option.bind_eq_some_iff.mp hverdict
      cases h
      exact .succeed job i due process hloop hthere hv
    next outcome hverdict =>
      obtain ⟨process, hthere, hv⟩ := Option.bind_eq_some_iff.mp hverdict
      cases h
      exact .failEarly job i due process outcome hloop hthere hv
    next => cases h
  next => cases h

private theorem transition_of_endGrace {i : InstanceId} (h : p.endGrace now i = some q) :
    Transition now p (.endGrace i) q := by
  unfold endGrace at h
  obtain ⟨g, hg, h⟩ := Option.bind_eq_some_iff.mp h
  obtain ⟨process, hthere, h⟩ := Option.bind_eq_some_iff.mp h
  obtain ⟨⟨call, r⟩, hterm, h⟩ := Option.bind_eq_some_iff.mp h
  simp only [terminate, hthere, Option.map_some, Option.some.injEq, Prod.mk.injEq] at hterm
  -- The process is the one that was looked up, so the call is its next one.
  obtain ⟨rfl, rfl⟩ := hterm
  dsimp only at h
  by_cases hdue : g.stage = .waiting ∧
      (process.exited?.isSome ∨ g.since + p.plan.timings.grace ≤ now)
  · rw [if_pos hdue] at h
    cases h
    exact .endGrace i g process hg hthere hdue.1 hdue.2
  · rw [if_neg hdue] at h
    cases h

private theorem transition_of_forget {i : InstanceId} (h : p.forget i = some q) :
    Transition now p (.forget i) q := by
  unfold forget at h
  obtain ⟨g, hg, h⟩ := Option.bind_eq_some_iff.mp h
  split at h
  next call hstage =>
    split at h
    next hterm => cases h; exact .forget i g call hg hstage hterm
    next => cases h
  next => cases h

private theorem transition_of_join {c : ClosingId} (h : p.join c = some q) :
    Transition now p (.join c) q := by
  unfold Proxy.join at h
  split at h
  next hclosing =>
    split at h
    next => cases h
    next hfree => cases h; exact .join c hclosing (by simpa using hfree)
  next => cases h

private theorem transition_of_killNext {c : ClosingId} (h : p.killNext c = some q) :
    Transition now p (.killNext c) q := by
  unfold killNext at h
  split at h
  next i rest hclosing =>
    cases hthere : p.process? i with
    | none =>
      -- An instance that was never spawned is passed over.
      simp only [terminate, hthere, Option.map_none] at h
      cases h
      exact .skipNext c i rest hclosing hthere
    | some process =>
      simp only [terminate, hthere, Option.map_some] at h
      cases h
      exact .killNext c i rest process hclosing hthere
  next => cases h

private theorem transition_of_killed {c : ClosingId} (h : p.killed c = some q) :
    Transition now p (.killed c) q := by
  unfold Proxy.killed at h
  split at h
  next rest i call hclosing =>
    split at h
    next hterm => cases h; exact .killed c i call rest hclosing hterm
    next => cases h
  next => cases h

private theorem transition_of_clear {c : ClosingId} (h : p.clear c = some q) :
    Transition now p (.clear c) q := by
  unfold Proxy.clear at h
  split at h
  next hclosing => cases h; exact .clear c hclosing
  next => cases h

private theorem transition_of_forgo {c : ClosingId} {left : Folder} (h : p.forgo c left = some q) :
    Transition now p (.forgo c left) q := by
  unfold Proxy.forgo at h
  split at h
  next folder hclosing hthere => cases h; exact .forgo c left folder hclosing hthere
  next => cases h

private theorem transition_of_processStep {i : InstanceId} {a : Process.Action}
    (h : p.processStep now i a = some q) : Transition now p (.process i a) q := by
  unfold processStep at h
  split at h
  next => cases h
  -- Terminations are asked for by the proxy, not by the process itself.
  next ha =>
    obtain ⟨process, hthere, h⟩ := Option.bind_eq_some_iff.mp h
    obtain ⟨process', hstep, h⟩ := Option.bind_eq_some_iff.mp h
    cases h
    exact .process i a process process' hthere ha hstep

/-- **Completeness**: every step of the reverse proxy is a transition. -/
theorem transition_of_step {a : Action} (h : p.step now a = some q) : Transition now p a q := by
  cases a with
  | register port => obtain ⟨up, h⟩ := call_eq_some h; cases h; exact .register port up
  | deregister port => obtain ⟨up, h⟩ := call_eq_some h; cases h; exact .deregister port up
  | insert port => obtain ⟨up, h⟩ := call_eq_some h; cases h; exact .insert port up
  | remove port => obtain ⟨up, h⟩ := call_eq_some h; cases h; exact .remove port up
  | request => obtain ⟨up, h⟩ := call_eq_some h; cases h; exact .request up
  | reloadNow => obtain ⟨up, h⟩ := call_eq_some h; cases h; exact .reloadNow up
  | shutdown => obtain ⟨up, h⟩ := call_eq_some h; cases h; exact .shutdown up
  | tamper folder => cases h; exact .tamper folder
  | receive => exact transition_of_receive h
  | expire => exact transition_of_expire h
  | halt => exact transition_of_halt h
  | prepare fault => exact transition_of_prepare h
  | write fault => exact transition_of_write h
  | rename fault => exact transition_of_rename h
  | spawn pid settle => exact transition_of_spawn h
  | refuse e => exact transition_of_refuse h
  | judge => exact transition_of_judge h
  | endGrace i => exact transition_of_endGrace h
  | forget i => exact transition_of_forget h
  | join c => exact transition_of_join h
  | killNext c => exact transition_of_killNext h
  | killed c => exact transition_of_killed h
  | clear c => exact transition_of_clear h
  | forgo c left => exact transition_of_forgo h
  | process i a => exact transition_of_processStep h

end Completeness

/-! ## Fields that are left alone -/

-- The auxiliary functions branch, but whatever they do, only the fields on the right change.

/-- A debounced request changes the place, the tickets and what was accepted. -/
theorem request_eq (p : Proxy) : p.request = { p with
    slot := p.request.slot
    accepted := p.request.accepted
    tickets := p.request.tickets } := by
  unfold request
  split <;> rfl

/-- An immediate request changes the place or the line, the tickets and what was
accepted. -/
theorem reloadNow_eq (p : Proxy) : p.reloadNow = { p with
    slot := p.reloadNow.slot
    line := p.reloadNow.line
    accepted := p.reloadNow.accepted
    tickets := p.reloadNow.tickets } := by
  unfold reloadNow
  split
  · rfl
  · dsimp only
    split <;> rfl

/-- Whoever comes in from the line changes the place, the line and what was accepted. -/
theorem refill_eq (p : Proxy) : p.refill = { p with
    slot := p.refill.slot
    line := p.refill.line
    accepted := p.refill.accepted } := by
  unfold refill
  split <;> rfl

/-- The end of a job changes the loop and the events, and closes the place if the loop has
failed. -/
theorem conclude_eq (p : Proxy) (now : Time) (job : Job) (replaces : Option InstanceId)
    (failure : Option Failure) : p.conclude now job replaces failure = { p with
      loop := (p.conclude now job replaces failure).loop
      slot := (p.conclude now job replaces failure).slot
      line := (p.conclude now job replaces failure).line
      events := (p.conclude now job replaces failure).events } := by
  unfold conclude
  split
  · split <;> rfl
  · rfl

/-- The first instance that takes over retires nobody. -/
theorem takeOver_eq (p : Proxy) (now : Time) (i : InstanceId) : p.takeOver now i = { p with
    current := some i
    retiring := p.retiring ++ (p.previous? i).toList
    graces := p.graces ++ (p.previous? i).toList.map (⟨·, now, .waiting⟩) } := by
  unfold takeOver
  cases p.previous? i with
  | none => simp
  | some old => rfl

@[simp] theorem stop_refill (p : Proxy) : p.refill.stop = p.stop := by rw [refill_eq]

@[simp] theorem loop_refill (p : Proxy) : p.refill.loop = p.loop := by rw [refill_eq]

@[simp] theorem loop_request (p : Proxy) : p.request.loop = p.loop := by rw [request_eq]

@[simp] theorem stop_request (p : Proxy) : p.request.stop = p.stop := by rw [request_eq]

@[simp] theorem folder_request (p : Proxy) : p.request.folder = p.folder := by rw [request_eq]

@[simp] theorem events_request (p : Proxy) : p.request.events = p.events := by rw [request_eq]

@[simp] theorem reloads_request (p : Proxy) : p.request.reloads = p.reloads := by rw [request_eq]

@[simp] theorem loop_reloadNow (p : Proxy) : p.reloadNow.loop = p.loop := by rw [reloadNow_eq]

@[simp] theorem registry_refill (p : Proxy) : p.refill.registry = p.registry := by rw [refill_eq]

@[simp] theorem registry_request (p : Proxy) : p.request.registry = p.registry := by
  rw [request_eq]

/-! ## What a step leaves alone -/

/-- Everything but the four calls that change the registry. -/
def Action.KeepsRegistry : Action → Prop
  | register _ | deregister _ | insert _ | remove _ => False
  | _ => True

/-- Only the four calls change the registry. -/
theorem Transition.registry_eq {now : Time} {p q : Proxy} {a : Action} (h : Transition now p a q)
    (ha : a.KeepsRegistry) : q.registry = p.registry := by
  cases h with
  | register | deregister | insert | remove => exact absurd ha id
  | request => rw [request_eq]
  | reloadNow => rw [reloadNow_eq]
  | openBurst | prolong | answer | endBurst => exact registry_refill p
  | prepareFails | writeFails | writeNowhere | renameFails | refuse | failEarly =>
    rw [conclude_eq]
  | succeed => rw [conclude_eq, takeOver_eq]
  | _ => rfl

/-- Only a shutdown tells the loop to stop. -/
theorem Transition.stop_eq {now : Time} {p q : Proxy} {a : Action} (h : Transition now p a q)
    (ha : a ≠ .shutdown) : q.stop = p.stop := by
  cases h with
  | register | deregister | request => exact stop_request _
  | reloadNow => rw [reloadNow_eq]
  | shutdown => exact absurd rfl ha
  | openBurst | prolong | answer | endBurst => exact stop_refill p
  | prepareFails | writeFails | writeNowhere | renameFails | refuse | failEarly => rw [conclude_eq]
  | succeed => rw [conclude_eq, takeOver_eq]
  | _ => rfl

/-- Once the first instance has taken over, the loop does not fail any more. -/
theorem Transition.isUp {now : Time} {p q : Proxy} {a : Action} (h : Transition now p a q)
    (up : p.isUp = true) : q.isUp = true := by
  have hsame : q.loop = p.loop → q.isUp = true := by
    intro loop
    simp only [Proxy.isUp, loop] at up ⊢
    exact up
  -- A job that is under way is a reload, so its end is no failure of the loop.
  have hconclude : ∀ {r : Proxy} {job stage replaces failure}, p.loop = .working job stage →
      (r.conclude now job replaces failure).isUp = true := by
    intro r job stage replaces failure loop
    cases job with
    | opening => simp [Proxy.isUp, loop] at up
    | reload r => rfl
  have hjob : ∀ {job stage stage'}, p.loop = .working job stage → q.loop = .working job stage' →
      q.isUp = true := by
    intro job stage stage' loop loop'
    cases job with
    | opening => simp [Proxy.isUp, loop] at up
    | reload r => simp [Proxy.isUp, loop']
  cases h with
  | register | deregister => exact hsame (loop_request _)
  | request => exact hsame (loop_request p)
  | reloadNow => exact hsame (loop_reloadNow p)
  | openBurst | prolong | answer | endBurst | expire | halt => rfl
  | prepareFails job _ loop | writeFails job _ _ _ loop | writeNowhere job _ loop
  | renameFails job _ _ loop | refuse job _ loop | succeed job _ _ _ loop
  | failEarly job _ _ _ _ loop => exact hconclude loop
  | prepare job loop | write job _ loop | rename job _ loop | spawn job _ _ loop =>
    exact hjob loop rfl
  | _ => exact hsame rfl

end OnionPool.Proxy
