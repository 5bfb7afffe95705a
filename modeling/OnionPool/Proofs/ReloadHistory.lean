import OnionPool.Proofs.ConfigFile
import OnionPool.Proofs.HandoffGrace
import OnionPool.Proofs.Runs

/-!
# The history of the reloads

Reloads follow each other, and each of them ends with an event. What a reload does is told from the
moment before it began: the registry of that moment is what it takes over, the instance that was
current then is what its starts are to replace. And if it fails, nothing is left of it: what has
happened besides leads from that moment to the same registry and the same instances.

## Structure

- `Agree` says that two proxies have the same registry and the same instances, up to those that were
  started last.
- `Begins` and `Ends` are the first and the last step of a reload; `Transition.reload_cases` says
  that all other steps leave the reloads and the events alone.
- `Agree.step_of_other` repeats what is no work of a reload where the reload was left out, and
  `Transition.agree_of_work` says that its work changes nothing but its own instance.
- `Underway` is the history of the reload that is under way, and `Underway.step` goes on with it;
  `Completed` is what has come of it when it ends.
- `reload_history` puts the histories of all reloads together with the configuration file.
-/

namespace OnionPool.Proxy

/-! ## Proxies that agree -/

/-- Two proxies have the same registry, and the same instances below a number. -/
structure Agree (n : InstanceId) (p q : Proxy) : Prop where
  plan : q.plan = p.plan
  registry : q.registry = p.registry
  current : q.current = p.current
  retiring : q.retiring = p.retiring
  graces : q.graces = p.graces
  closings : q.closings = p.closings
  processes : ∀ i < n, q.process? i = p.process? i

section Agreement

variable {n : InstanceId} {p q r : Proxy}

theorem Agree.trans (h : Agree n p q) (h' : Agree n q r) : Agree n p r where
  plan := h'.plan.trans h.plan
  registry := h'.registry.trans h.registry
  current := h'.current.trans h.current
  retiring := h'.retiring.trans h.retiring
  graces := h'.graces.trans h.graces
  closings := h'.closings.trans h.closings
  processes i hi := (h'.processes i hi).trans (h.processes i hi)

/-- Whatever is requested, both go on to agree. -/
theorem Agree.request (h : Agree n p q) : Agree n p.request q.request := by
  rw [request_eq p, request_eq q]
  exact { h with }

/-- An immediate request is answered alike. -/
theorem Agree.reloadNow (h : Agree n p q) : Agree n p.reloadNow q.reloadNow := by
  rw [reloadNow_eq p, reloadNow_eq q]
  exact { h with }

theorem Agree.setRegistry (h : Agree n p q) (registry : PortSet) :
    Agree n { p with registry } { q with registry } := { h with registry := rfl }

theorem Agree.insert (h : Agree n p q) (port : Port) : Agree n (p.insert port) (q.insert port) := by
  show Agree n { p with registry := p.registry.insert port }
    { q with registry := q.registry.insert port }
  rw [h.registry]
  exact h.setRegistry _

theorem Agree.remove (h : Agree n p q) (port : Port) : Agree n (p.remove port) (q.remove port) := by
  show Agree n { p with registry := p.registry.erase port }
    { q with registry := q.registry.erase port }
  rw [h.registry]
  exact h.setRegistry _

/-- The same process is set for the same instance. -/
theorem Agree.setProcess (h : Agree n p q) {i : InstanceId} {process : Process}
    (hi : i < n) (there : q.process? i = some process) (process' : Process) :
    Agree n (p.setProcess i process') (q.setProcess i process') := by
  have there' : p.process? i = some process := (h.processes i hi).symm.trans there
  refine { h with processes := fun j hj => ?_ }
  by_cases hij : i = j
  · subst hij
    rw [process?_setProcess_self there, process?_setProcess_self there']
  · rw [process?_setProcess_ne q hij, process?_setProcess_ne p hij]
    exact h.processes j hj

/-- What happens to an instance above the number is not seen. -/
theorem agree_setProcess {i : InstanceId} (hi : n ≤ i) (p : Proxy) (process : Process) :
    Agree n p (p.setProcess i process) where
  plan := rfl
  registry := rfl
  current := rfl
  retiring := rfl
  graces := rfl
  closings := rfl
  processes _ hj := process?_setProcess_ne p (Nat.ne_of_gt (Nat.lt_of_lt_of_le hj hi)) process

end Agreement

/-! ## The first and the last step of a reload -/

/-- The reload that is under way. -/
def Loop.reload? : Loop → Option Reload
  | .working (.reload r) _ => some r
  | _ => none

/-- A reload begins. -/
structure Begins (p : Proxy) (r : Reload) (q : Proxy) : Prop where
  waiting : p.loop.isWaiting = true
  loop : q.loop = .working (.reload r) .writing
  reloads : q.reloads = r :: p.reloads
  events : q.events = p.events
  generation : r.generation = p.reloads.length + 1
  snapshot : r.snapshot = p.registry
  starts : q.starts = p.starts
  agree : Agree p.starts.length p q

/-- A reload ends with an event. -/
structure Ends (p : Proxy) (r : Reload) (e : Event) (q : Proxy) : Prop where
  loop : q.loop = .idle
  reloads : q.reloads = p.reloads
  events : q.events = e :: p.events
  generation : e.generation = r.generation
  backends : e.backends = r.snapshot.toList
  serving : e.serving = q.current
  /-- The event tells whether the configuration was put in place. -/
  wrote : e.wrote = p.loop.written?.isSome
  /-- The instance that settled has taken over. -/
  success : e.failure = none →
    q.starts = p.starts ∧ ∃ i, p.loop.settling? = some i ∧ q.current = some i
  /-- Nothing is left of the reload but perhaps a start. -/
  failure : e.failure ≠ none → (∀ n, Agree n p q) ∧
    (q.starts = p.starts ∨ p.loop.settling? = none ∧ ∃ s : Start, s.previous = p.current ∧
      q.starts = p.starts ++ [s])

section Steps

variable {now : Time} {p q : Proxy} {a : Action} {r : Reload} {n : InstanceId}

@[simp] theorem reload?_conclude (p : Proxy) (now : Time) (job : Job)
    (replaces : Option InstanceId) (failure : Option Failure) :
    (p.conclude now job replaces failure).loop.reload? = none := by
  unfold conclude
  split
  · split <;> rfl
  · rfl

/-- A loop that waits begins a reload. -/
theorem begins_begin (waiting : p.loop.isWaiting = true) (rs : List Request) :
    ∃ r, Begins p r (p.begin now rs) := by
  refine ⟨_, waiting, rfl, rfl, rfl, rfl, rfl, rfl, ?_⟩
  exact ⟨rfl, rfl, rfl, rfl, rfl, rfl, fun _ _ => rfl⟩

/-- A reload begins, too, when somebody has come in from the line. -/
theorem begins_refill (waiting : p.loop.isWaiting = true) (rs : List Request) :
    ∃ r, Begins p r (p.refill.begin now rs) := by
  rw [refill_eq]
  refine ⟨_, waiting, rfl, rfl, rfl, rfl, rfl, rfl, ?_⟩
  exact ⟨rfl, rfl, rfl, rfl, rfl, rfl, fun _ _ => rfl⟩

/-- The reload begins, or ends, or every step leaves the reloads and the events as they are. -/
theorem Transition.reload_cases (h : Transition now p a q) :
    (q.loop.reload? = p.loop.reload? ∧ q.reloads = p.reloads ∧ q.events = p.events) ∨
      (∃ r, Begins p r q) ∨ ∃ r e, p.loop.reload? = some r ∧ Ends p r e q := by
  have hwaits : ∀ {l : Loop}, l.isWaiting = true → p.loop = l → p.loop.isWaiting = true :=
    fun waiting loop => loop ▸ waiting
  cases h with
  | register | deregister | request =>
    refine .inl ⟨?_, reloads_request _, events_request _⟩
    exact congrArg Loop.reload? (loop_request _)
  | reloadNow =>
    rw [reloadNow_eq]
    exact .inl ⟨rfl, rfl, rfl⟩
  | openBurst _ _ _ loop | prolong _ _ _ _ _ _ loop =>
    rw [refill_eq, loop]
    exact .inl ⟨rfl, rfl, rfl⟩
  -- The three ways in which the loop begins a reload, and then how its job may end.
  | answer _ _ _ loop => exact .inr (.inl (begins_refill (hwaits rfl loop) _))
  | endBurst _ _ _ _ _ _ loop => exact .inr (.inl (begins_refill (hwaits rfl loop) _))
  | expire _ _ _ loop => exact .inr (.inl (begins_begin (hwaits rfl loop) _))
  | halt _ loop =>
    rcases loop with loop | ⟨openedAt, latestAt, rs, loop⟩
    all_goals
      rw [loop]
      exact .inl ⟨rfl, rfl, rfl⟩
  | prepare job loop | write job _ loop | rename job _ loop | spawn job _ _ loop =>
    rw [loop]
    cases job <;> exact .inl ⟨rfl, rfl, rfl⟩
  | prepareFails job _ loop | writeFails job _ _ _ loop | writeNowhere job _ loop
  | renameFails job _ _ loop | failEarly job _ _ _ _ loop =>
    rw [loop]
    cases job with
    | opening => exact .inl ⟨rfl, rfl, rfl⟩
    | reload r =>
      refine .inr (.inr ⟨r, _, rfl, {
        loop := rfl, reloads := rfl, events := rfl
        generation := rfl, backends := rfl, serving := rfl
        wrote := by rw [loop]; rfl
        success := nofun
        failure := fun _ => ⟨fun n => ?_, .inl rfl⟩ }⟩)
      exact ⟨rfl, rfl, rfl, rfl, rfl, rfl, fun _ _ => rfl⟩
  | refuse job e loop =>
    rw [loop]
    cases job with
    | opening => exact .inl ⟨rfl, rfl, rfl⟩
    | reload r =>
      refine .inr (.inr ⟨r, _, rfl, {
        loop := rfl, reloads := rfl, events := rfl
        generation := rfl, backends := rfl, serving := rfl
        wrote := by rw [loop]; rfl
        success := nofun
        failure := fun _ => ⟨fun n => ?_, .inr ?_⟩ }⟩)
      · exact ⟨rfl, rfl, rfl, rfl, rfl, rfl, fun i _ => process?_append_none rfl rfl i⟩
      · exact ⟨by rw [loop]; rfl, _, rfl, rfl⟩
  | succeed job i due process loop =>
    rw [loop, takeOver_eq]
    cases job with
    | opening => exact .inl ⟨rfl, rfl, rfl⟩
    | reload r =>
      refine .inr (.inr ⟨r, _, rfl, {
        loop := rfl, reloads := rfl, events := rfl
        generation := rfl, backends := rfl, serving := rfl
        wrote := by rw [loop]; rfl
        success := fun _ => ⟨rfl, i, ?_, rfl⟩
        failure := fun hsome => absurd rfl hsome }⟩)
      rw [loop]
      rfl
  | _ => exact .inl ⟨rfl, rfl, rfl⟩

end Steps

/-! ## Besides a reload -/

/-- What a reload does, and what happens to the instance that it starts. -/
def Action.isReloadWork (n : InstanceId) : Action → Bool
  | prepare _ | write _ | rename _ | spawn _ _ | refuse _ | judge => true
  | process i _ => n ≤ i
  | _ => false

section Besides

variable {plan : Plan} {now : Time} {p p' q : Proxy} {a : Action} {r : Reload}
  {n i : InstanceId}

theorem call_of_isUp (up : p.isUp = true) (q : Option Proxy) : p.call q = q := if_pos up

theorem not_isSettling (h : p.loop.settling? ≠ some i) : p.loop.isSettling i = false :=
  Bool.eq_false_iff.mpr fun hs => h (isSettling_iff.mp hs)

/-- The same instances are held but the one that settles: the one that it is to replace serves, and
so is held in any case. -/
theorem Agree.holds (h : Agree n p q) (waiting : p.loop.isWaiting = true)
    (hq : q.loop.settling? ≠ some i)
    (replaces : ∀ j, q.loop.settling? = some j → q.previous? j = q.current) :
    q.holds i = p.holds i := by
  have hp : p.loop.settling? = none := settling?_of_waiting waiting
  have hnobody : p.loop.isSettling i = false := not_isSettling (by rw [hp]; exact nofun)
  have hnone : p.replaced? = none := by rw [replaced?, hp]; rfl
  have hreplaced : q.replaced? = none ∨ q.replaced? = p.current := by
    cases hsettling : q.loop.settling? with
    | none => exact .inl (by rw [replaced?, hsettling]; rfl)
    | some j =>
      refine .inr (Eq.trans ?_ h.current)
      rw [replaced?, hsettling]
      exact replaces j hsettling
  unfold Proxy.holds
  rw [not_isSettling hq, hnobody, hnone, h.current, h.retiring, h.graces, h.closings]
  rcases hreplaced with hreplaced | hreplaced
  · rw [hreplaced]
  · rw [hreplaced]
    simp

/-- Proxies that agree have granted the same graces. -/
theorem Agree.grace? (h : Agree n p q) (i : InstanceId) : q.grace? i = p.grace? i := by
  simp only [Proxy.grace?, h.graces]

/-- What is no work of the reload can happen as well where the reload was left out. -/
theorem Agree.step_of_other (agree : Agree n p q) (waiting : p.loop.isWaiting = true)
    (h : Handoffs plan now q) (going : q.loop.reload? = some r)
    (own : ∀ i, q.loop.settling? = some i → n ≤ i)
    (replaces : ∀ i, q.loop.settling? = some i → q.previous? i = q.current)
    (graces : ∀ g ∈ q.graces, g.retired < n)
    {q' : Proxy} (t : Transition now q a q') (ha : a ≠ .shutdown)
    (other : a.isReloadWork n = false) :
    ∃ p', p.step now a = some p' ∧ p'.loop = p.loop ∧ Agree n p' q' := by
  have up : p.isUp = true := isUp_of_waiting waiting
  cases t with
  | register port =>
    exact ⟨_, call_of_isUp up _, loop_request _, (agree.insert port).request⟩
  | deregister port =>
    exact ⟨_, call_of_isUp up _, loop_request _, (agree.remove port).request⟩
  | insert port => exact ⟨_, call_of_isUp up _, rfl, agree.insert port⟩
  | remove port => exact ⟨_, call_of_isUp up _, rfl, agree.remove port⟩
  | request => exact ⟨_, call_of_isUp up _, loop_request p, agree.request⟩
  | reloadNow => exact ⟨_, call_of_isUp up _, loop_reloadNow p, agree.reloadNow⟩
  | shutdown => exact absurd rfl ha
  | tamper folder => exact ⟨_, rfl, rfl, { agree with }⟩
  -- The loop is at work on the reload, so it can do nothing else.
  | openBurst _ _ _ loop | prolong _ _ _ _ _ _ loop | answer _ _ _ loop
  | endBurst _ _ _ _ _ _ loop | expire _ _ _ loop =>
    rw [loop] at going
    cases going
  | halt _ loop =>
    rcases loop with loop | ⟨openedAt, latestAt, rs, loop⟩
    all_goals
      rw [loop] at going
      cases going
  | prepare | prepareFails | write | writeFails | writeNowhere | rename | renameFails | spawn
  | refuse | succeed | failEarly => cases other
  -- Whoever retires was started before the reload.
  | endGrace i g process grace there stage due =>
    obtain ⟨hg, rfl⟩ := mem_of_grace? grace
    have hbelow : g.retired < n := graces g hg
    have there' : p.process? g.retired = some process :=
      (agree.processes _ hbelow).symm.trans there
    have grace' : p.grace? g.retired = some g := (agree.grace? _).symm.trans grace
    refine ⟨{ p.setProcess g.retired process.terminate with
      graces := p.graces.map (·.dismiss g.retired process.nextCall) }, ?_, rfl, ?_⟩
    · rw [agree.plan] at due
      simp [Proxy.step, Proxy.endGrace, grace', there', terminate, stage, due]
    · have hset := agree.setProcess hbelow there process.terminate
      exact { hset with graces := by rw [agree.graces] }
  | forget i g call grace stage terminated =>
    obtain ⟨hg, rfl⟩ := mem_of_grace? grace
    have grace' : p.grace? g.retired = some g := (agree.grace? _).symm.trans grace
    have terminated' : p.isTerminated g.retired call = true := by
      rw [isTerminated, ← agree.processes _ (graces g hg)]
      exact terminated
    refine ⟨{ p with
      graces := p.graces.filter (·.retired ≠ g.retired)
      retiring := p.retiring.filter (· ≠ g.retired) }, ?_, rfl, { agree with
      graces := congrArg (List.filter (·.retired ≠ g.retired)) agree.graces
      retiring := congrArg (List.filter (· ≠ g.retired)) agree.retiring }⟩
    simp [Proxy.step, Proxy.forget, grace', stage, terminated']
  | join c closing | killNext c _ _ _ closing | skipNext c _ _ closing | killed c _ _ _ closing
  | clear c closing | forgo c _ _ closing =>
    rw [h.closings] at closing
    cases closing
  | process i b process process' there notAsked step =>
    have hbelow : i < n := by simpa [Action.isReloadWork] using other
    have there' : p.process? i = some process := (agree.processes i hbelow).symm.trans there
    have hq : q.loop.settling? ≠ some i := fun hi => Nat.not_le.mpr hbelow (own i hi)
    rw [agree.holds waiting hq replaces] at step
    refine ⟨p.setProcess i process', ?_, rfl, agree.setProcess hbelow there process'⟩
    show p.processStep now i b = some (p.setProcess i process')
    unfold processStep
    split
    · exact absurd rfl notAsked
    · simp [there', step]

/-- The work of a reload that goes on changes nothing but its own instance. -/
theorem Transition.agree_of_work (t : Transition now p a q) (going : q.loop.reload? = some r)
    (work : a.isReloadWork n = true) (starts : n ≤ p.starts.length) : Agree n p q := by
  cases t with
  | prepare | write | rename => exact ⟨rfl, rfl, rfl, rfl, rfl, rfl, fun _ _ => rfl⟩
  | spawn =>
    refine ⟨rfl, rfl, rfl, rfl, rfl, rfl, fun i hi => ?_⟩
    exact process?_append (Nat.lt_of_lt_of_le hi starts) rfl
  | process i b process process' => exact agree_setProcess (of_decide_eq_true work) p process'
  -- What ends a job ends the reload.
  | prepareFails | writeFails | writeNowhere | renameFails | refuse | succeed | failEarly =>
    rw [reload?_conclude] at going
    cases going
  | _ => cases work

end Besides

/-! ## While a reload goes on -/

section Going

variable {now : Time} {p q : Proxy} {a : Action} {r : Reload}

/-- Whose place a start is to take does not depend on its process. -/
theorem previous_setProcess (p : Proxy) (i : InstanceId) (process : Process) :
    (p.setProcess i process).starts.map (·.previous) = p.starts.map (·.previous) := by
  apply List.ext_getElem?
  intro j
  simp only [setProcess, List.getElem?_map, List.getElem?_modify]
  cases p.starts[j]? with
  | none => rfl
  | some s => split <;> rfl

/-- While a reload goes on, no instance takes over. -/
theorem Transition.current_of_going (t : Transition now p a q) (closings : p.closings = [])
    (going : q.loop.reload? = some r) : q.current = p.current := by
  by_cases hkeep : a.KeepsPlaces
  · exact (t.samePlaces hkeep).current
  · cases t with
    | succeed | failEarly =>
      rw [reload?_conclude] at going
      cases going
    | join c closing =>
      rw [closings] at closing
      cases closing
    | shutdown | forget | killNext | skipNext | killed | clear | forgo => rfl
    | _ => exact absurd trivial hkeep

/-- While a reload goes on, it starts nothing, or an instance in the place of the current one, which
settles from then on. -/
theorem Transition.starts_of_going (t : Transition now p a q) (before : p.loop.reload? = some r)
    (after : q.loop.reload? = some r) :
    (q.starts.map (·.previous) = p.starts.map (·.previous) ∧
      q.loop.settling? = p.loop.settling?) ∨
    (p.loop.settling? = none ∧ q.loop.settling? = some p.starts.length ∧
      q.starts.map (·.previous) = p.starts.map (·.previous) ++ [p.current]) := by
  cases t with
  | spawn job pid settle loop =>
    refine .inr ⟨by rw [loop]; rfl, rfl, ?_⟩
    exact List.map_append
  | register | deregister | request =>
    exact .inl ⟨congrArg _ (starts_request _), congrArg _ (loop_request _)⟩
  | reloadNow => exact .inl ⟨congrArg _ (starts_reloadNow p), congrArg _ (loop_reloadNow p)⟩
  | prepare _ loop | write _ _ loop | rename _ _ loop =>
    rw [loop]
    exact .inl ⟨rfl, rfl⟩
  | endGrace i g process => exact .inl ⟨previous_setProcess p i process.terminate, rfl⟩
  | killNext c i rest process => exact .inl ⟨previous_setProcess p i process.terminate, rfl⟩
  | process i b process process' => exact .inl ⟨previous_setProcess p i process', rfl⟩
  -- These end the reload, and the ones below are steps of a loop that waits.
  | prepareFails | writeFails | writeNowhere | renameFails | refuse | succeed | failEarly =>
    rw [reload?_conclude] at after
    cases after
  | openBurst _ _ _ loop | prolong _ _ _ _ _ _ loop | answer _ _ _ loop
  | endBurst _ _ _ _ _ _ loop | expire _ _ _ loop =>
    rw [loop] at before
    cases before
  | halt => cases after
  | _ => exact .inl ⟨rfl, rfl⟩

end Going

/-! ## The history of one reload -/

/-- The history of the reload `r` that is under way: it began with a step from `before`, and `done`
is what has happened since. -/
structure Underway (plan : Plan) (folder : Option Folder) (r : Reload) (now : Time) (p : Proxy)
    (before : Proxy) (done : List (Time × Action)) : Prop where
  begun : ∃ since a first, machine.Reach (· ≠ .shutdown) { plan, folder } since before ∧
    a ≠ .shutdown ∧ before.step since a = some first ∧ Begins before r first ∧
    machine.Trace (· ≠ .shutdown) since first done now p
  going : p.loop.reload? = some r
  reloads : p.reloads = r :: before.reloads
  events : p.events = before.events
  current : p.current = before.current
  /-- Only the instance that settles was started. -/
  starts : p.starts.map (·.previous) =
    before.starts.map (·.previous) ++ p.loop.settling?.toList.map fun _ => before.current
  settles : ∀ i, p.loop.settling? = some i → i = before.starts.length
  /-- Had the reload been left out, the registry and the instances would be the same. -/
  without : ∃ q, machine.replay (done.filter fun x => !x.2.isReloadWork before.starts.length)
    before = some q ∧ q.loop = before.loop ∧ Agree before.starts.length q p

section History

variable {plan : Plan} {folder : Option Folder} {now : Time} {p q before : Proxy} {a : Action}
  {r : Reload} {done : List (Time × Action)}

theorem Underway.begin (h : machine.Reach (· ≠ .shutdown) { plan, folder } now p)
    (ha : a ≠ .shutdown) (hs : p.step now a = some q) (begins : Begins p r q) :
    Underway plan folder r now q p [] where
  begun := ⟨now, a, q, h, ha, hs, begins, .refl⟩
  going := by rw [begins.loop]; rfl
  reloads := begins.reloads
  events := begins.events
  current := begins.agree.current
  starts := by rw [begins.starts, begins.loop]; exact (List.append_nil _).symm
  settles i hi := by rw [begins.loop] at hi; cases hi
  without := ⟨p, rfl, rfl, begins.agree⟩

/-- A reload that is under way has started the instance that settles, or none. -/
theorem Underway.length_starts (u : Underway plan folder r now p before done) :
    p.starts.length = before.starts.length + p.loop.settling?.toList.length := by
  simpa using congrArg List.length u.starts

/-- The history tells how the proxy was reached. -/
theorem Underway.reach (u : Underway plan folder r now p before done) :
    machine.Reach (· ≠ .shutdown) { plan, folder } now p := by
  obtain ⟨since, a, first, hreach, ha, hfirst, -, htrace⟩ := u.begun
  exact Machine.Reach.append (.act hreach ha hfirst) htrace.run

/-- Whoever retires was started before the reload. -/
theorem Underway.retired_lt (u : Underway plan folder r now p before done)
    (h : Handoffs plan now p) {g : Grace} (hg : g ∈ p.graces) :
    g.retired < before.starts.length := by
  have hroster := h.mem_roster_of_grace hg
  obtain ⟨process, there⟩ := Option.isSome_iff_exists.mp (h.manned _ hroster)
  have hlt := lt_of_process? there
  rw [u.length_starts] at hlt
  have hretiring : g.retired ∈ p.retiring := h.retiring ▸ List.mem_map_of_mem hg
  cases hsettling : p.loop.settling? with
  | none => simpa [hsettling] using hlt
  | some i =>
    -- The one that settles is the last that was started, and does not retire.
    have hne : g.retired ≠ before.starts.length := by
      intro hsame
      apply (h.not_current hretiring).2
      rw [hsettling, u.settles i hsettling, hsame]
    simp only [hsettling, Option.toList_some, List.length_singleton] at hlt
    exact Nat.lt_of_le_of_ne (Nat.le_of_lt_succ hlt) hne

/-- The history goes on with every step that does not end the reload. -/
theorem Underway.step (u : Underway plan folder r now p before done) (h : Handoffs plan now p)
    (ha : a ≠ .shutdown) (hs : p.step now a = some q) (going : q.loop.reload? = some r)
    (reloads : q.reloads = p.reloads) (events : q.events = p.events) :
    Underway plan folder r now q before (done ++ [(now, a)]) := by
  have ht := transition_of_step hs
  obtain ⟨since, b, first, hreach, hb, hfirst, hbegins, htrace⟩ := u.begun
  have hcurrent := ht.current_of_going h.closings going
  refine {
    begun := ⟨since, b, first, hreach, hb, hfirst, hbegins, htrace.act ha hs⟩
    going
    reloads := reloads.trans u.reloads
    events := events.trans u.events
    current := hcurrent.trans u.current
    starts := ?starts
    settles := ?settles
    without := ?without }
  case starts =>
    rcases ht.starts_of_going u.going going with ⟨hstarts, hsettling⟩ | ⟨hnone, hsome, hstarts⟩
    · rw [hstarts, hsettling]
      exact u.starts
    · rw [hstarts, u.starts, hnone, hsome, u.current]
      simp
  case settles =>
    intro i hi
    rcases ht.starts_of_going u.going going with ⟨-, hsettling⟩ | ⟨hnone, hsome, -⟩
    · exact u.settles i (hsettling.symm.trans hi)
    · have hlength := u.length_starts
      rw [hnone] at hlength
      exact (Option.some.inj (hi.symm.trans hsome)).trans hlength
  case without =>
    obtain ⟨p₀, hreplay, hloop, hagree⟩ := u.without
    rw [List.filter_append]
    cases hwork : a.isReloadWork before.starts.length with
    | true =>
      -- Left out here, and nothing to be seen there.
      have hsame : Agree before.starts.length p q :=
        ht.agree_of_work going hwork (u.length_starts ▸ Nat.le_add_right ..)
      refine ⟨p₀, ?_, hloop, hagree.trans hsame⟩
      simpa [hwork] using hreplay
    | false =>
      have hwaiting : p₀.loop.isWaiting = true := hloop ▸ hbegins.waiting
      obtain ⟨p₁, hstep, hloop', hagree'⟩ := hagree.step_of_other hwaiting h u.going
        (fun i hi => Nat.le_of_eq (u.settles i hi).symm)
        (fun _ hi => previous?_of_settling u.reach hi) (fun g hg => u.retired_lt h hg) ht ha hwork
      refine ⟨p₁, ?_, hloop'.trans hloop, hagree'⟩
      have hsnoc := Machine.replay_snoc hreplay hstep
      simpa [hwork] using hsnoc

/-- The clock moves on while a reload is under way. -/
theorem Underway.tick (u : Underway plan folder r now p before done)
    (quiet : machine.Quiet now p) : Underway plan folder r (now + 1) p before done := by
  obtain ⟨since, b, first, hreach, hb, hfirst, hbegins, htrace⟩ := u.begun
  exact { u with begun := ⟨since, b, first, hreach, hb, hfirst, hbegins, htrace.tick quiet⟩ }

/-- What has come of a reload that began from `before`, when it ends with the event `e`. -/
structure Completed (before : Proxy) (done : List (Time × Action)) (e : Event) (q : Proxy) :
    Prop where
  generation : e.generation = before.events.length + 1
  backends : e.backends = before.registry.toList
  ascending : e.backends.Pairwise (· < ·)
  serving : e.serving = q.current
  /-- Every start that it has come to was to replace the instance that was current. -/
  starts : ∃ k, q.starts.map (·.previous) =
    before.starts.map (·.previous) ++ List.replicate k before.current
  /-- After a success, the new instance is current. -/
  success : e.failure = none →
    q.current = some before.starts.length ∧ q.starts.length = before.starts.length + 1
  /-- After a failure, the registry and the instances are as if there had been no reload. -/
  failure : e.failure ≠ none →
    ∃ p, machine.replay (done.filter fun x => !x.2.isReloadWork before.starts.length) before =
      some p ∧ Agree before.starts.length p q

/-- A reload that ends has come of what its history says. -/
theorem Underway.completed (u : Underway plan folder r now p before done)
    (counted : p.reloads.length = p.events.length + 1) {e : Event} (ends : Ends p r e q) :
    Completed before done e q := by
  obtain ⟨since, b, first, -, -, -, hbegins, -⟩ := u.begun
  have hbackends : e.backends = before.registry.toList := by
    rw [ends.backends, hbegins.snapshot]
  refine {
    generation := ?generation
    backends := hbackends
    ascending := hbackends ▸ before.registry.ascending
    serving := ends.serving
    starts := ?starts
    success := fun hnone => ?success
    failure := fun hsome => ?failure }
  case generation =>
    rw [ends.generation, hbegins.generation, ← u.events]
    rw [u.reloads, List.length_cons] at counted
    exact counted
  case starts =>
    -- Under way, the reload has started the instance that settles, and no other one.
    have hunder : p.starts.map (·.previous) = before.starts.map (·.previous) ++
        List.replicate p.loop.settling?.toList.length before.current := by
      rw [u.starts, List.map_const']
    by_cases hnone : e.failure = none
    · rw [(ends.success hnone).1]
      exact ⟨_, hunder⟩
    · rcases (ends.failure hnone).2 with hstarts | ⟨hsettling, s, hprevious, hstarts⟩
      · rw [hstarts]
        exact ⟨_, hunder⟩
      · refine ⟨1, ?_⟩
        rw [hstarts, List.map_append, u.starts, hsettling, List.map_singleton, hprevious, u.current]
        simp
  case success =>
    obtain ⟨hstarts, i, hsettling, hcurrent⟩ := ends.success hnone
    refine ⟨hcurrent.trans (congrArg some (u.settles i hsettling)), ?_⟩
    rw [hstarts, u.length_starts, hsettling]
    rfl
  case failure =>
    obtain ⟨p₀, hreplay, -, hagree⟩ := u.without
    exact ⟨p₀, hreplay, hagree.trans ((ends.failure hsome).1 _)⟩

/-- A loop that waits is on no reload. -/
theorem reload?_of_waiting {l : Loop} (h : l.isWaiting = true) : l.reload? = none := by
  rcases isWaiting_iff.mp h with rfl | ⟨openedAt, latestAt, rs, rfl⟩ <;> rfl

/-- Reloads follow each other, and the one that is under way has its history. -/
structure History (plan : Plan) (folder : Option Folder) (now : Time) (p : Proxy) : Prop where
  numbered : p.events.reverse.map (·.generation) = List.range' 1 p.events.length
  counted : p.reloads.length = p.events.length + p.loop.reload?.toList.length
  underway : ∀ r, p.loop.reload? = some r →
    ∃ before done, Underway plan folder r now p before done

/-- While a reload goes on, it is the only one without an event. -/
theorem History.counted_of_going (h : History plan folder now p) (going : p.loop.reload? = some r) :
    p.reloads.length = p.events.length + 1 := by
  rw [h.counted, going]
  rfl

/-- The invariant is kept by every step. -/
theorem History.step (h : History plan folder now p)
    (reach : machine.Reach (· ≠ .shutdown) { plan, folder } now p) (ha : a ≠ .shutdown)
    (hs : p.step now a = some q) : History plan folder now q := by
  -- The reload that is under way goes on, the next one begins, or it ends with its event.
  rcases (transition_of_step hs).reload_cases with ⟨hgoing, hreloads, hevents⟩ |
    ⟨r, hbegins⟩ | ⟨r, e, hgoing, hends⟩
  · refine ⟨hevents ▸ h.numbered, by rw [hreloads, hevents, hgoing]; exact h.counted, ?_⟩
    intro r hr
    obtain ⟨before, done, hunder⟩ := h.underway r (hgoing ▸ hr)
    exact ⟨before, _, hunder.step (Handoffs.of_reach reach) ha hs hr hreloads hevents⟩
  · refine ⟨hbegins.events ▸ h.numbered, ?_, ?_⟩
    · rw [hbegins.reloads, hbegins.events, hbegins.loop, List.length_cons, h.counted,
        reload?_of_waiting hbegins.waiting]
      rfl
    · intro r' hr'
      rw [hbegins.loop] at hr'
      cases hr'
      exact ⟨p, [], .begin reach ha hs hbegins⟩
  · obtain ⟨before, done, hunder⟩ := h.underway r hgoing
    have hcounted := h.counted_of_going hgoing
    refine ⟨?_, ?_, fun r' hr' => ?_⟩
    · -- The event has the next number.
      have hnumber : e.generation = 1 + p.events.length := by
        rw [(hunder.completed hcounted hends).generation, ← hunder.events, Nat.add_comm]
      rw [hends.events, List.reverse_cons, List.map_append, h.numbered, List.map_singleton,
        hnumber, List.length_cons, List.range'_1_concat]
    · rw [hends.reloads, hends.events, hends.loop, hcounted, List.length_cons]
      rfl
    · rw [hends.loop] at hr'
      cases hr'

theorem History.tick (h : History plan folder now p) (quiet : machine.Quiet now p) :
    History plan folder (now + 1) p := by
  refine { h with underway := fun r hr => ?_ }
  obtain ⟨before, done, hunder⟩ := h.underway r hr
  exact ⟨before, done, hunder.tick quiet⟩

/-- The invariant holds in every run without a shutdown. -/
theorem History.of_reach (h : machine.Reach (· ≠ .shutdown) { plan, folder } now p) :
    History plan folder now p := by
  induction h with
  | start => exact ⟨rfl, rfl, nofun⟩
  | act hreach ha hs ih => exact ih.step hreach ha hs
  | tick _ hq ih => exact ih.tick hq

end History

/-! ## All reloads -/

/-- **The history of the reloads**, as long as there is no shutdown: reloads do not overlap, and
their events are numbered without a gap; the one that is under way has its history, and one that
ends has come of what its history says; and if nobody else changes the directory, the
configuration that was put in place last is there as a whole. -/
theorem reload_history {plan : Plan} {folder : Option Folder} {now : Time} {p : Proxy}
    (h : machine.Reach (· ≠ .shutdown) { plan, folder } now p) :
    p.events.reverse.map (·.generation) = List.range' 1 p.events.length ∧
    p.reloads.length = p.events.length + p.loop.reload?.toList.length ∧
    (∀ r, p.loop.reload? = some r → ∃ before done, Underway plan folder r now p before done) ∧
    (∀ a q, a ≠ .shutdown → p.step now a = some q → q.events = p.events ∨
      ∃ r e before done, Underway plan folder r now p before done ∧ q.events = e :: p.events ∧
        e.wrote = p.loop.written?.isSome ∧ Completed before done e q) ∧
    (machine.Reach Action.IsUndisturbed { plan, folder } now p → p.loop.isUnwritten = false →
      p.config? = some (plan.render p.lastWritten)) := by
  have hp := History.of_reach h
  refine ⟨hp.numbered, hp.counted, hp.underway, fun a q _ hs => ?_, fun undisturbed written => ?_⟩
  · rcases (transition_of_step hs).reload_cases with ⟨-, -, hevents⟩ | ⟨r, hbegins⟩ |
      ⟨r, e, hgoing, hends⟩
    · exact .inl hevents
    · exact .inl hbegins.events
    · obtain ⟨before, done, hunder⟩ := hp.underway r hgoing
      have hcompleted := hunder.completed (hp.counted_of_going hgoing) hends
      exact .inr ⟨r, e, before, done, hunder, hends.events, hends.wrote, hcompleted⟩
  · exact (Filed.of_reach undisturbed).config written

/-- The replacement of the first instance cannot be spawned; the next one is, and settles. -/
def relapse : List Action := [
  .prepare none, .write none, .rename none, .spawn 1 0, .judge,
  .insert 9050, .reloadNow, .receive, .write none, .rename none, .refuse (.os .notFound),
  .insert 9051, .reloadNow, .receive, .write none, .rename none, .spawn 2 0]

def relapsed : Proxy := (machine.play 0 relapse { plan := briefPlan }).getD { plan := briefPlan }

/-- One reload has failed, and the next one succeeds and has the next number. -/
theorem reload_history_in_relapse :
    machine.play 0 relapse { plan := briefPlan } = some relapsed ∧
      relapsed.events.reverse.map (·.generation) = [1] ∧
      relapsed.config? = some (briefPlan.render (.ofList [9050, 9051])) ∧
      ∃ q e before done, relapsed.step 0 .judge = some q ∧ q.events = e :: relapsed.events ∧
        Completed before done e q ∧ e.generation = 2 ∧ q.current = some 2 := by
  have hplay : machine.play 0 relapse { plan := briefPlan } = some relapsed := by rfl
  have hreach : machine.Reach Action.IsUndisturbed { plan := briefPlan } 0 relapsed :=
    .of_play (by simp [relapse, Action.IsUndisturbed]) hplay
  obtain ⟨hnumbered, -, -, hends, hconfig⟩ := reload_history (hreach.mono fun _ ha => ha.1)
  obtain ⟨q, hq, hcurrent, hlength⟩ : ∃ q, relapsed.step 0 .judge = some q ∧
      q.current = some 2 ∧ q.events.length = 2 := ⟨_, rfl, rfl, rfl⟩
  refine ⟨hplay, hnumbered, hconfig hreach rfl, ?_⟩
  rcases hends .judge q nofun hq with hevents | ⟨r, e, before, done, hunder, hevents, -, hcompleted⟩
  · rw [hevents] at hlength
    cases hlength
  · refine ⟨q, e, before, done, hq, hevents, hcompleted, ?_, hcurrent⟩
    rw [hcompleted.generation, ← hunder.events]
    rfl

end OnionPool.Proxy
