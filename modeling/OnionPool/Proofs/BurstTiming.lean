import OnionPool.Proofs.HandoffGrace
import OnionPool.Proofs.ReloadHistory

/-!
# When a burst ends

A burst is opened by a debounced request, and each further one prolongs it; but it does not last
longer than the ceiling after it was opened. It ends with one reload that answers all its requests:
at once when an immediate request is received, and otherwise exactly when it is due.

## Structure

- `latestReceipt` says when a request of a burst was received last, `Receives` which step receives
  it.
- `Gathering` is the invariant of a burst that lasts, told from the step that opened it.
- `Gathering.step` says what a step does to a burst: it lasts, or a reload begins on time.
- `burst_ends_on_time` reads this off for all runs before the shutdown.
-/

namespace OnionPool.Proxy

/-! ## Receipts -/

/-- Whether the loop receives a request. -/
def Action.isReceipt : Action → Bool
  | receive => true
  | _ => false

/-- A step receives a request. -/
def Receives (x : Request) (p : Proxy) (a : Action) (_ : Proxy) : Prop :=
  a.isReceipt = true ∧ p.slot = some x

/-- When a request was received last, if the first one of the burst was received at `openedAt`. -/
def latestReceipt (openedAt : Time) (done : List (Time × Action)) : Time :=
  ((done.filter (·.2.isReceipt)).getLast?.map (·.1)).getD openedAt

section Receipts

variable {openedAt now : Time} {done : List (Time × Action)} {a : Action}

/-- A receipt is the latest one at the moment at which it happens. -/
theorem latestReceipt_of_receipt (receipt : a.isReceipt = true) :
    latestReceipt openedAt (done ++ [(now, a)]) = now := by
  simp [latestReceipt, List.filter_append, receipt]

/-- No other step is a receipt. -/
theorem latestReceipt_of_other (other : a.isReceipt = false) :
    latestReceipt openedAt (done ++ [(now, a)]) = latestReceipt openedAt done := by
  simp [latestReceipt, List.filter_append, other]

end Receipts

/-! ## A burst that lasts -/

/-- A burst lasts since it was opened by the request `opener`, which has led to `first`; the
requests that were received since are remembered. -/
structure Gathering (plan : Plan) (openedAt : Time) (opener : Request) (first : Proxy)
    (done : List (Time × Action)) (now : Time) (p : Proxy) : Prop where
  inTime : now ≤ deadline plan.timings openedAt (latestReceipt openedAt done)
  loop : ∃ rs, p.loop = .pending openedAt (latestReceipt openedAt done) rs ∧ opener ∈ rs ∧
    ∀ x, machine.Occurred (Receives x) first done → x ∈ rs

/-- A reload begins that answers all requests of a burst. -/
structure Answers (opener : Request) (first : Proxy) (done : List (Time × Action)) (now : Time)
    (r : Reload) (p q : Proxy) : Prop where
  begins : q.reloads = r :: p.reloads
  startedAt : r.startedAt = now
  opener : opener ∈ r.requests
  received : ∀ x, machine.Occurred (Receives x) first done → x ∈ r.requests

section Steps

variable {plan : Plan} {openedAt now : Time} {opener : Request} {first p q : Proxy}
  {done : List (Time × Action)} {a : Action}

/-- What receives nothing, and leaves the loop alone, leaves the burst as it is. -/
theorem Gathering.frame (h : Gathering plan openedAt opener first done now p)
    (hist : machine.replay done first = some p) (hs : p.step now a = some q)
    (other : a.isReceipt = false) (loop : q.loop = p.loop) :
    Gathering plan openedAt opener first (done ++ [(now, a)]) now q := by
  have hlatest : latestReceipt openedAt (done ++ [(now, a)]) = latestReceipt openedAt done :=
    latestReceipt_of_other other
  obtain ⟨rs, hloop, hopener, hreceived⟩ := h.loop
  constructor
  · rw [hlatest]
    exact h.inTime
  · rw [hlatest, loop]
    refine ⟨rs, hloop, hopener, fun x hx => ?_⟩
    rcases hx.of_snoc hist hs with hx | ⟨hreceipt, -⟩
    · exact hreceived x hx
    · rw [other] at hreceipt
      cases hreceipt

/-- A step within a burst either lets it last, and receives no immediate request; or it begins a
reload that answers all requests of the burst, at the instant at which it receives an immediate one,
or exactly when the burst is due. -/
theorem Gathering.step (h : Gathering plan openedAt opener first done now p)
    (samePlan : p.plan = plan) (running : p.stop = false)
    (hist : machine.replay done first = some p) (hs : p.step now a = some q) :
    (q.reloads = p.reloads ∧ Gathering plan openedAt opener first (done ++ [(now, a)]) now q ∧
      ∀ x, Receives x p a q → x.urgency = .debounced) ∨
    ∃ r, Answers opener first done now r p q ∧
      ((∃ x ∈ r.requests, Receives x p a q ∧ x.urgency = .immediate) ∨ a.isReceipt = false ∧
        now = deadline plan.timings openedAt (latestReceipt openedAt done)) := by
  obtain ⟨rs, hloop, hopener, hreceived⟩ := h.loop
  have hquiet : ∀ {b : Action}, a = b → b.isReceipt = false →
      ∀ x, Receives x p a q → x.urgency = .debounced := by
    rintro b rfl hother x ⟨hreceipt, -⟩
    rw [hother] at hreceipt
    cases hreceipt
  have hlast : ∀ x, machine.Occurred (Receives x) first (done ++ [(now, a)]) →
      machine.Occurred (Receives x) first done ∨ Receives x p a q :=
    fun x hx => hx.of_snoc hist hs
  have hrefill : p.refill.reloads = p.reloads := by rw [refill_eq]
  cases transition_of_step hs with
  | prolong x openedAt' latestAt rs' slot debounced loop =>
    -- The burst has received one more request, and is due later, perhaps.
    rw [hloop] at loop
    cases loop
    have hlatest : latestReceipt openedAt (done ++ [(now, Action.receive)]) = now :=
      latestReceipt_of_receipt rfl
    refine .inl ⟨?_, ⟨?_, x :: rs, ?_, List.mem_cons_of_mem _ hopener, fun y hy => ?_⟩,
      fun y hy => ?_⟩
    · exact hrefill
    · rw [hlatest]
      refine le_min (Nat.le_add_right ..) ?_
      exact h.inTime.trans (min_le_right ..)
    · rw [hlatest]
    · rcases hlast y hy with hy | ⟨-, hslot⟩
      · exact List.mem_cons_of_mem _ (hreceived y hy)
      · cases slot.symm.trans hslot
        exact List.mem_cons_self ..
    · cases slot.symm.trans hy.2
      exact debounced
  | endBurst x openedAt' latestAt rs' slot immediate loop =>
    rw [hloop] at loop
    cases loop
    refine .inr ⟨⟨p.refill.generation + 1, p.refill.registry, x :: rs, now⟩, {
      begins := congrArg (_ :: ·) hrefill
      startedAt := rfl
      opener := List.mem_cons_of_mem _ hopener
      received := fun y hy => List.mem_cons_of_mem _ (hreceived y hy) }, .inl ⟨x, ?_⟩⟩
    exact ⟨List.mem_cons_self .., ⟨rfl, slot⟩, immediate⟩
  | expire openedAt' latestAt rs' loop due =>
    rw [hloop] at loop
    cases loop
    -- It is not past the moment at which the burst is due, and not before it either.
    refine .inr ⟨_, ⟨rfl, rfl, hopener, hreceived⟩, .inr ⟨rfl, ?_⟩⟩
    exact Nat.le_antisymm h.inTime (samePlan ▸ due)
  | halt stop =>
    rw [running] at stop
    cases stop
  -- The loop gathers requests, so it does not work on a job, and is not idle.
  | openBurst _ _ _ loop | answer _ _ _ loop | prepare _ loop | prepareFails _ _ loop
  | write _ _ loop | writeFails _ _ _ _ loop | writeNowhere _ _ loop | rename _ _ loop
  | renameFails _ _ _ loop | spawn _ _ _ loop | refuse _ _ loop | succeed _ _ _ _ loop
  | failEarly _ _ _ _ _ loop =>
    rw [hloop] at loop
    cases loop
  | register port | deregister port =>
    exact .inl ⟨reloads_request _, h.frame hist hs rfl (loop_request _), hquiet rfl rfl⟩
  | request => exact .inl ⟨reloads_request p, h.frame hist hs rfl (loop_request p), hquiet rfl rfl⟩
  | reloadNow =>
    refine .inl ⟨?_, h.frame hist hs rfl (loop_reloadNow p), hquiet rfl rfl⟩
    rw [reloadNow_eq]
  | _ => exact .inl ⟨rfl, h.frame hist hs rfl rfl, hquiet rfl rfl⟩

/-- When the clock is about to move on, the burst is not due yet. -/
theorem Gathering.early_of_quiet (h : Gathering plan openedAt opener first done now p)
    (samePlan : p.plan = plan) (quiet : machine.Quiet now p) :
    now < deadline plan.timings openedAt (latestReceipt openedAt done) := by
  obtain ⟨rs, hloop, -⟩ := h.loop
  -- A burst that is due could end, so the clock would stand still.
  have hexpire : p.expire now = none := quiet .expire rfl
  by_contra hdue
  rw [Nat.not_lt, ← samePlan] at hdue
  simp [Proxy.expire, hloop, hdue] at hexpire

end Steps

/-! ## From the opening on -/

section Bursts

variable {plan : Plan} {folder : Option Folder} {openedAt now : Time} {opener : Request}
  {before first p q : Proxy} {done : List (Time × Action)} {a : Action}

/-- Without a shutdown, the loop is never told to stop. -/
theorem running_of_reach (h : machine.Reach (· ≠ .shutdown) { plan, folder } now p) :
    p.stop = false :=
  h.induct (P := fun _ (p : Proxy) => p.stop = false) rfl
    (fun ih ha hs => ((transition_of_step hs).stop_eq ha).trans ih) fun ih _ => ih

/-- Reloads are never forgotten. -/
theorem Transition.generation_le (h : Transition now p a q) : p.generation ≤ q.generation := by
  rcases h.reload_cases with ⟨-, hreloads, -⟩ | ⟨r, hbegins⟩ | ⟨r, e, -, hends⟩
  · exact Nat.le_of_eq (congrArg List.length hreloads).symm
  · rw [generation, generation, hbegins.reloads]
    exact Nat.le_succ _
  · exact Nat.le_of_eq (congrArg List.length hends.reloads).symm

/-- A burst begins to last when an idle loop receives a debounced request. -/
theorem Gathering.opened (plan : Plan) (idle : before.loop = .idle)
    (slot : before.slot = some opener) (debounced : opener.urgency = .debounced)
    (opens : before.step openedAt .receive = some first) :
    first.generation = before.generation ∧
      Gathering plan openedAt opener first [] openedAt first := by
  cases transition_of_step opens with
  | openBurst x slot' =>
    cases slot.symm.trans slot'
    refine ⟨?_, ?_, _, rfl, List.mem_singleton_self _, fun y hy => ?_⟩
    · rw [refill_eq]
      rfl
    · exact le_min (Nat.le_add_right ..) (Nat.le_add_right ..)
    · exact absurd hy Machine.not_occurred_nil
  | answer x slot' immediate =>
    cases slot.symm.trans slot'
    rw [debounced] at immediate
    cases immediate
  | prolong _ _ _ _ _ _ loop | endBurst _ _ _ _ _ _ loop =>
    rw [idle] at loop
    cases loop

/-- A burst lasts until a reload begins. -/
theorem Gathering.of_trace (h : machine.Reach (· ≠ .shutdown) { plan, folder } openedAt first)
    (opened : Gathering plan openedAt opener first [] openedAt first)
    (run : machine.Trace (· ≠ .shutdown) openedAt first done now p) :
    (p.generation = first.generation ∧ Gathering plan openedAt opener first done now p) ∨
      first.generation < p.generation := by
  induction run with
  | refl => exact .inl ⟨rfl, opened⟩
  | @act done now p q a run ha hs ih =>
    have hreach := h.append run.run
    rcases ih with ⟨hsame, hlasts⟩ | hover
    · rcases hlasts.step (Handoffs.of_reach hreach).samePlan (running_of_reach hreach) run.replay hs
        with ⟨hreloads, hlasts', -⟩ | ⟨r, hanswers, -⟩
      · exact .inl ⟨(congrArg List.length hreloads).trans hsame, hlasts'⟩
      · refine .inr ?_
        rw [← hsame, generation, generation, hanswers.begins]
        exact Nat.lt_succ_self _
    · exact .inr (Nat.lt_of_lt_of_le hover (transition_of_step hs).generation_le)
  | tick run hq ih =>
    rcases ih with ⟨hsame, hlasts⟩ | hover
    · have hsamePlan := (Handoffs.of_reach (h.append run.run)).samePlan
      exact .inl ⟨hsame, { hlasts with inTime := hlasts.early_of_quiet hsamePlan hq }⟩
    · exact .inr hover

/-- **A burst ends on time**, for all waiting times and as long as there is no shutdown. A debounced
request opens a burst at `openedAt`, and as long as no reload has begun since, the loop gathers
requests. The burst is due at the quiet period after the last request was received, or at the
ceiling after the first one, whatever is earlier; it does not last longer, and the clock moves on
only before that moment. A step from within either receives no immediate request and begins no
reload; or it begins the one reload that answers all requests of the burst, at the instant at which
an immediate one is received, or else exactly when the burst is due. -/
theorem burst_ends_on_time (h : machine.Reach (· ≠ .shutdown) { plan, folder } openedAt before)
    (idle : before.loop = .idle) (slot : before.slot = some opener)
    (debounced : opener.urgency = .debounced) (opens : before.step openedAt .receive = some first)
    (run : machine.Trace (· ≠ .shutdown) openedAt first done now p)
    (lasts : p.generation = before.generation) :
    let due := min (latestReceipt openedAt done + plan.timings.quiet)
      (openedAt + plan.timings.ceiling)
    p.state = .pending ∧ now ≤ due ∧ (machine.Quiet now p → now < due) ∧
    ∀ a q, p.step now a = some q →
      (q.generation = p.generation ∧ ∀ x, Receives x p a q → x.urgency = .debounced) ∨
      ∃ r, Answers opener first done now r p q ∧
        ((∃ x ∈ r.requests, Receives x p a q ∧ x.urgency = .immediate) ∨
          a.isReceipt = false ∧ now = due) := by
  obtain ⟨hopened, hfirst⟩ := Gathering.opened plan idle slot debounced opens
  have hreach : machine.Reach (· ≠ .shutdown) { plan, folder } openedAt first :=
    .act (a := .receive) h nofun opens
  have hsamePlan := (Handoffs.of_reach (hreach.append run.run)).samePlan
  have hrunning := running_of_reach (hreach.append run.run)
  -- The burst still lasts: had it ended, the generation would be another one.
  have hlasts : Gathering plan openedAt opener first done now p := by
    rcases Gathering.of_trace hreach hfirst run with ⟨-, hlasts⟩ | hover
    · exact hlasts
    · rw [lasts, hopened] at hover
      exact absurd hover (Nat.lt_irrefl _)
  refine ⟨?_, hlasts.inTime, hlasts.early_of_quiet hsamePlan, fun a q hs => ?_⟩
  · obtain ⟨rs, hloop, -⟩ := hlasts.loop
    rw [state, hloop]
  · rcases hlasts.step hsamePlan hrunning run.replay hs with ⟨hreloads, -, hdebounced⟩ | hanswers
    · exact .inl ⟨congrArg List.length hreloads, hdebounced⟩
    · exact .inr hanswers

/-- A proxy that waits two milliseconds for more requests, but never longer than that. -/
def hurriedPlan : Plan := ⟨⟨8080, none, 256, .roundRobin⟩, ⟨2, 2, 1⟩, "haproxy"⟩

/-- The first instance takes over, and a reload is requested. -/
def preparation : List Action :=
  [.prepare none, .write none, .rename none, .spawn 1 0, .judge, .request]

def ready : Proxy :=
  (machine.play 0 preparation { plan := hurriedPlan }).getD { plan := hurriedPlan }

/-- The first request is received. -/
def gathering : Proxy := (ready.step 0 .receive).getD ready

/-- One millisecond later, a second request is received. -/
def prolonged : Proxy := (machine.play 1 [.request, .receive] gathering).getD gathering

theorem quiet_gathering : machine.Quiet 0 gathering := by
  refine quiet_of_resting ⟨.inr ⟨0, 0, _, rfl, by decide⟩, rfl, rfl, nofun, rfl,
    fun i process there a ha => ?_⟩
  match i with
  | 0 => cases there; exact Process.quiet_of_unasked rfl rfl rfl rfl ha
  | i + 1 => cases there

theorem quiet_prolonged : machine.Quiet 1 prolonged := by
  refine quiet_of_resting ⟨.inr ⟨0, 1, _, rfl, by decide⟩, rfl, rfl, nofun, rfl,
    fun i process there a ha => ?_⟩
  match i with
  | 0 => cases there; exact Process.quiet_of_unasked rfl rfl rfl rfl ha
  | i + 1 => cases there

/-- The burst is over after two milliseconds, though the second request could wait for a third one,
and the reload answers both requests. -/
theorem burst_ends_on_time_when_hurried :
    machine.Reach (· ≠ .shutdown) { plan := hurriedPlan } 0 ready ∧
      ready.step 0 .receive = some gathering ∧
      machine.Trace (· ≠ .shutdown) 0 gathering [(1, .request), (1, .receive)] 2 prolonged ∧
      prolonged.state = .pending ∧
      ∃ q r, prolonged.step 2 .expire = some q ∧
        Answers ⟨0, .debounced⟩ gathering [(1, .request), (1, .receive)] 2 r prolonged q ∧
        r.requests = [⟨1, .debounced⟩, ⟨0, .debounced⟩] := by
  have hprepare : machine.play 0 preparation { plan := hurriedPlan } = some ready := rfl
  have hready : machine.Reach (· ≠ .shutdown) { plan := hurriedPlan } 0 ready :=
    .of_play (by simp [preparation]) hprepare
  have hopens : ready.step 0 .receive = some gathering := rfl
  have hprolong : machine.play 1 [.request, .receive] gathering = some prolonged := rfl
  have hrun : machine.Trace (· ≠ .shutdown) 0 gathering [(1, .request), (1, .receive)] 2
      prolonged :=
    .tick (.play (.tick .refl quiet_gathering) (by simp) hprolong) quiet_prolonged
  obtain ⟨hpending, -, -, hsteps⟩ := burst_ends_on_time hready rfl rfl rfl hopens hrun rfl
  obtain ⟨q, hexpire, hbegun⟩ : ∃ q, prolonged.step 2 .expire = some q ∧ q.generation = 1 :=
    ⟨_, rfl, rfl⟩
  refine ⟨hready, hopens, hrun, hpending, ?_⟩
  rcases hsteps .expire q hexpire with ⟨hsame, -⟩ | ⟨r, hanswers, -⟩
  · rw [hbegun] at hsame
    cases hsame
  · refine ⟨q, r, hexpire, hanswers, ?_⟩
    have hreload : q.reloads.map (·.requests) = [[⟨1, .debounced⟩, ⟨0, .debounced⟩]] := by
      cases hexpire
      rfl
    rw [hanswers.begins] at hreload
    exact (List.cons.inj hreload).1

end Bursts

end OnionPool.Proxy
