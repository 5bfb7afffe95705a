import OnionPool.Proofs.PoolFreshness
import OnionPool.Proofs.ReloadCoverage
import OnionPool.Proofs.ReloadHistory

/-!
# Backends that are withdrawn

A pair that retires is withdrawn from the registry before its forwarder is asked to end, but nobody
waits for the reload that takes this over. So the instance that serves can send traffic to a
forwarder that is being terminated: as long as the reload is to come or under way, or when it has
failed.

## Structure

- `Attached` says that the reverse proxy of a pool makes a run of its own, so that what is known of
  such runs holds in a pool.
- `Proxy.Lags` lists what can be the reason when a port that is not in the registry still gets
  traffic.
- `dying_backend_is_withdrawn` is what holds while a pair is taken down.
- `expired_backend_is_still_routed` is the run in which a forwarder is asked to end while it still
  gets traffic.
-/

namespace OnionPool

/-! ## Ports that get traffic -/

namespace Proxy

/-- The instance that serves was started on a configuration that lists a port. -/
def Routes (p : Proxy) (port : Port) : Prop :=
  ∃ text, p.servingConfig = some text ∧ port ∈ renderedBackends text

/-- Why a port that is not in the registry can still get traffic: the latest snapshot lists it, and
a reload is requested or a burst is open; or the latest snapshot does not, and its reload is under
way or has failed. -/
inductive Lags (p : Proxy) (port : Port) : Prop where
  | requested (stale : port ∈ p.lastSnapshot) (slot : p.slot.isSome = true)
  | gathering (stale : port ∈ p.lastSnapshot) (state : p.state = .pending)
  | reloading (fresh : port ∉ p.lastSnapshot) (state : p.state = .reloading)
  | failed (fresh : port ∉ p.lastSnapshot) (e : Event) (latest : p.events.head? = some e)
      (failure : e.failure.isSome = true)

section Traffic

variable {p : Proxy} {port : Port} {backends : PortSet}

/-- Traffic is routed only to the backends of the configuration that serves. -/
theorem mem_of_routes (serving : p.servingConfig = some (p.plan.render backends))
    (routes : p.Routes port) : port ∈ backends := by
  obtain ⟨text, htext, hport⟩ := routes
  cases serving.symm.trans htext
  rw [Plan.render, renderedBackends_render] at hport
  exact PortSet.mem_toList.mp hport

/-- A port that gets traffic though it has left the registry is one that the proxy lags behind
with. -/
theorem Covered.lags (covered : Covered p) (faithful : Faithful p) (up : p.isUp = true)
    (gone : port ∉ p.registry) (routes : p.Routes port) : p.Lags port := by
  by_cases hstale : port ∈ p.lastSnapshot
  · rcases covered.covered with hsame | hslot | hpending
    · exact absurd (hsame ▸ hstale) gone
    · exact .requested hstale hslot
    · exact .gathering hstale hpending
  · by_cases hstate : p.state = .reloading
    · exact .reloading hstale hstate
    cases hreloads : p.reloads with
    | nil =>
      -- The first instance knows no backends.
      have hmem := mem_of_routes (faithful.opened up hreloads) routes
      exact absurd hmem (PortSet.not_mem_empty port)
    | cons r rest =>
      have hlatest : p.reloads.head? = some r := by rw [hreloads]; rfl
      obtain ⟨e, he, -, hserves⟩ := faithful.outcome up hstate r hlatest
      refine .failed hstale e he (Option.isSome_iff_ne_none.mpr fun hok => hstale ?_)
      rw [lastSnapshot, hreloads]
      exact mem_of_routes (hserves hok) routes

end Traffic

end Proxy

namespace Pool

/-! ## The run of the reverse proxy -/

/-- The actions of a run in which nobody else changes the registry or the directory of the reverse
proxy, or shuts it down. -/
def Action.IsTidy : Action → Prop
  | proxy a => a.KeepsRegistry ∧ a.IsTidy
  | _ => True

theorem Action.IsTidy.isOwn {a : Action} (h : a.IsTidy) : a.IsOwn := by
  cases a with
  | proxy a => exact h.1
  | _ => trivial

/-- The reverse proxy of a pool has come to its state by itself and by the calls of the tasks, and
was up before there were any. -/
structure Attached (proxyPlan : Proxy.Plan) (now : Time) (p : Pool) : Prop where
  reach : Proxy.machine.Reach Proxy.Action.IsTidy { plan := proxyPlan } now p.proxy
  up : p.runner ≠ .waiting → p.proxy.isUp = true
  begun : p.tasks ≠ [] → p.runner ≠ .waiting

section Attachment

variable {plan : Plan} {proxyPlan : Proxy.Plan} {range : PortRange}
  {folders : List (Seat × Contents)} {now : Time} {p q : Pool} {t t' : Task} {a : Action}

/-- A move calls the reverse proxy at most once. -/
theorem Move.proxy_cases (h : Move now p t t' q) : q.proxy = p.proxy ∨
    ∃ port, q.proxy = p.proxy.register port ∨ q.proxy = p.proxy.deregister port := by
  cases h with
  | register pair => exact .inr ⟨pair.forwarderPort, .inl rfl⟩
  | deregister pair => exact .inr ⟨pair.forwarderPort, .inr rfl⟩
  | _ => exact .inl rfl

/-- A tidy step of the proxy alone leaves it attached. -/
theorem Attached.act {b : Proxy.Action} {proxy : Proxy} (h : Attached proxyPlan now p)
    (tidy : b.IsTidy) (step : p.proxy.step now b = some proxy) (same : q.proxy = proxy)
    (runner : q.runner = p.runner) (begun : q.tasks ≠ [] → q.runner ≠ .waiting) :
    Attached proxyPlan now q where
  reach := by rw [same]; exact .act h.reach tidy step
  up hrunner := by
    rw [same]
    exact (Proxy.transition_of_step step).isUp (h.up (runner ▸ hrunner))
  begun := begun

/-- The invariant is kept by every tidy step. -/
theorem Attached.step (h : Attached proxyPlan now p) (ha : a.IsTidy) (change : Change now p a q) :
    Attached proxyPlan now q := by
  cases change with
  | raise | desert | worker => exact { h with }
  | proxy b proxy step => exact h.act ha.2 step rfl rfl h.begun
  | begin runner up => exact ⟨h.reach, fun _ => up, fun _ hrunner => by cases hrunner⟩
  | admitPair runner =>
    have hbegun : p.runner ≠ .waiting := by rw [runner]; decide
    exact ⟨h.reach, h.up, fun _ => hbegun⟩
  | close runner | finish runner =>
    have hup := h.up (by rw [runner]; decide)
    exact ⟨h.reach, fun _ => hup, fun _ hrunner => by cases hrunner⟩
  | task i b t t' r there move =>
    have hrunner : r.runner = p.runner := move.frame.2.2.2
    have hbegun : r.runner ≠ .waiting := by
      rw [hrunner]
      exact h.begun (List.ne_nil_of_mem (List.mem_of_getElem? there))
    have hup : p.proxy.isUp = true := h.up (hrunner ▸ hbegun)
    rcases move.proxy_cases with hsame | ⟨port, hcall | hcall⟩
    · exact ⟨hsame ▸ h.reach, fun _ => hsame ▸ hup, fun _ => hbegun⟩
    -- The call of a task is one from outside.
    · have htidy : (Proxy.Action.register port).IsTidy := ⟨trivial, by simp⟩
      exact h.act htidy (if_pos hup) hcall hrunner fun _ => hbegun
    · have htidy : (Proxy.Action.deregister port).IsTidy := ⟨trivial, by simp⟩
      exact h.act htidy (if_pos hup) hcall hrunner fun _ => hbegun

/-- The proxy of a pool whose runs are tidy has a run of its own. -/
theorem Attached.of_reach
    (h : machine.Reach Action.IsTidy (opening plan proxyPlan range folders) now p) :
    Attached proxyPlan now p := by
  -- The induction is on the run: the tasks are proper before each step.
  induction h with
  | start => exact ⟨.start, fun hrunner => absurd rfl hrunner, fun htasks => absurd rfl htasks⟩
  | act hreach ha hs ih =>
    have haccounts := (Accounts.of_reach (hreach.mono fun _ => Action.IsTidy.isOwn)).2
    exact ih.step ha (change_of_step haccounts.proper hs)
  | tick _ hq ih =>
    exact ⟨.tick ih.reach fun a ha => Option.map_eq_none_iff.mp (hq (.proxy a) ha), ih.up, ih.begun⟩

end Attachment

/-! ## Pairs that are taken down -/

section Runs

variable {plan : Plan} {proxyPlan : Proxy.Plan} {range : PortRange}
  {folders : List (Seat × Contents)} {now : Time} {p q : Pool} {a : Action} {i : Nat} {t : Task}

/-- A reload that begins takes the registry as it is. -/
theorem Change.lastSnapshot (h : Change now p a q) :
    q.proxy.reloads = p.proxy.reloads ∨ q.proxy.lastSnapshot = p.proxy.registry := by
  cases h with
  | proxy b proxy step =>
    rcases (Proxy.transition_of_step step).reload_cases with ⟨-, hreloads, -⟩ | ⟨r, hbegins⟩ |
      ⟨r, e, -, hends⟩
    · exact .inl hreloads
    · refine .inr ?_
      show proxy.lastSnapshot = _
      rw [Proxy.lastSnapshot, hbegins.reloads]
      exact hbegins.snapshot
    · exact .inl hends.reloads
  | task i b t t' r there move =>
    refine .inl ?_
    show r.proxy.reloads = _
    rcases move.proxy_cases with hsame | ⟨port, hcall | hcall⟩
    · rw [hsame]
    · rw [hcall]; exact Proxy.reloads_request _
    · rw [hcall]; exact Proxy.reloads_request _
  | _ => exact .inl rfl

/-- Whatever is to be stopped can be asked to end. -/
theorem Ownership.exists_stop {w : WorkerId} {rest : List Chore} (h : Ownership p)
    (proper : t.Proper) (there : p.tasks[i]? = some t)
    (tearing : t.activity = .tearing (.stop w :: rest)) :
    ∃ q, p.step now (.task i .proceed) = some q ∧ Does (.stop w) p (.task i .proceed) q := by
  cases proper with
  | tearing =>
    cases tearing
    obtain ⟨worker, hworker, -⟩ :=
      h.spared _ (List.mem_of_getElem? there) w (List.mem_cons_self ..)
    have hprocess : p.site.process? w = some worker.process := by simp [Site.process?, hworker]
    have hchores : Chore.step (.stop w :: rest) p.site =
        some (.await w worker.process.nextCall :: rest,
          p.site.setProcess w worker.process.terminate) := by
      simp [Chore.step, hprocess]
    refine ⟨{ p with
      site := p.site.setProcess w worker.process.terminate
      tasks := p.tasks.set i
        ⟨.retiring, none, none, .tearing (.await w worker.process.nextCall :: rest)⟩ }, ?_, ?_⟩
    · simp [Pool.step, there, taskStep, proceed, doChore, hchores]
    · refine ⟨worker, { worker with process := worker.process.terminate }, hworker, ?_, ?_⟩
      · show (p.site.setProcess w worker.process.terminate).workers[w]? = _
        simp [Site.setProcess, hworker]
      · simp [Process.terminate]
  | _ => cases tearing

/-- **A dying backend is withdrawn**, in every run. The first thing that is done to a pair that is
taken down is to ask its forwarder to end. From before that until its ports are released none of
them is in the registry, and no reload that begins takes one over. If besides nobody else changes
the directory of the reverse proxy or shuts it down, then a port still gets traffic only as long as
the reload that leaves it out is to come or is under way, or when it has failed. -/
theorem dying_backend_is_withdrawn
    (h : machine.Reach Action.IsOwn (opening plan proxyPlan range folders) now p)
    (there : p.tasks[i]? = some t) :
    (∀ pair : Pair, t.activity = .tearing pair.teardown →
      ∃ q, p.step now (.task i .proceed) = some q ∧
        Does (.stop pair.forwarder) p (.task i .proceed) q) ∧
    ∀ chores, t.activity = .tearing chores → ∀ port ∈ Chore.ports chores,
      port ∉ p.proxy.registry ∧
      (∀ a q, p.step now a = some q → q.proxy.reloads ≠ p.proxy.reloads →
        port ∉ q.proxy.lastSnapshot) ∧
      (machine.Reach Action.IsTidy (opening plan proxyPlan range folders) now p →
        p.proxy.Routes port → p.proxy.Lags port) := by
  have haccounts := (Accounts.of_reach h).2
  have hownership := (Ownership.of_reach h).2
  have hproper := haccounts.proper t (List.mem_of_getElem? there)
  refine ⟨fun pair tearing => hownership.exists_stop hproper there tearing,
    fun chores tearing port held => ?_⟩
  -- A task that tears its pair down carries no pair any more, so none advertises the port.
  have hgone : port ∉ p.proxy.registry := by
    cases hproper with
    | tearing => cases tearing; exact haccounts.not_mem_registry there held rfl
    | _ => cases tearing
  refine ⟨hgone, fun a q hs begins => ?_, fun tidy routes => ?_⟩
  · rcases (change_of_step haccounts.proper hs).lastSnapshot with hsame | htaken
    · exact absurd hsame begins
    · rw [htaken]
      exact hgone
  · -- A tidy run of the pool is one of the proxy, in which traffic follows the last snapshot.
    have hattached := Attached.of_reach tidy
    obtain ⟨hcovered, hfaithful⟩ := Proxy.Faithful.of_reach hattached.reach
    have hbegun := hattached.begun (List.ne_nil_of_mem (List.mem_of_getElem? there))
    exact hcovered.lags hfaithful (hattached.up hbegun) hgone routes

/-- The lifetime of the pair is over, and it is withdrawn. -/
def expire : List Action := [.task 0 (.retire .expired), .task 0 .proceed, .task 0 .proceed]

def briefDying : Pool := (machine.play 100 expire briefConnected).getD brief

theorem play_briefDying : machine.play 100 expire briefConnected = some briefDying := rfl

theorem reach_briefDying : machine.Reach Action.IsTidy brief 100 briefDying := by
  have hserves : machine.Trace Action.IsTidy 0 brief briefDone 100 briefConnected := by
    refine trace_briefConnected ?_ (by decide) (by decide)
    simp [serve, serveAndRaise, connect, Action.IsTidy, Proxy.Action.KeepsRegistry,
      Proxy.Action.IsTidy, Proxy.Action.IsAnnounced]
  refine Machine.Reach.append .start (.play hserves.run ?_ play_briefDying)
  simp [expire, Action.IsTidy]

/-- The instance that serves was started before the pair was withdrawn. -/
theorem routes_briefDying : briefDying.proxy.Routes 30001 := by
  have hserving : briefDying.proxy.servingConfig =
      some (briefDying.proxy.plan.render (PortSet.empty.insert 30001)) := by rfl
  refine ⟨_, hserving, ?_⟩
  rw [Proxy.Plan.render, Proxy.renderedBackends_render]
  exact PortSet.mem_toList.mpr (PortSet.mem_insert.mpr (.inl rfl))

/-- The lifetime of the pair is over, and both processes run. The forwarder is asked to end while
the instance that serves still sends traffic to it. -/
theorem expired_backend_is_still_routed :
    machine.Reach Action.IsTidy brief 100 briefDying ∧
      briefDying.notes[1]? = some (.stopping 30000 30001 .expired) ∧
      briefDying.site.isReaped 0 = false ∧ briefDying.site.isReaped 1 = false ∧
      (∃ t, briefDying.tasks[0]? = some t ∧
        t.activity = .tearing (Pair.teardown ⟨30000, 30001, 0, 1⟩)) ∧
      (∃ q, briefDying.step 100 (.task 0 .proceed) = some q ∧
        Does (.stop 1) briefDying (.task 0 .proceed) q) ∧
      briefDying.proxy.Routes 30001 := by
  refine ⟨reach_briefDying, rfl, rfl, rfl, ⟨_, rfl, rfl⟩, ⟨_, rfl, ?_⟩, routes_briefDying⟩
  exact ⟨_, _, rfl, rfl, by decide⟩

/-- When the forwarder is asked to end, it is not in the registry, and the reload is to come. -/
theorem dying_backend_is_withdrawn_brief :
    briefDying.proxy.registry.toList = [] ∧ briefDying.proxy.Routes 30001 ∧
      briefDying.proxy.Lags 30001 := by
  have hown := reach_briefDying.mono fun _ => Action.IsTidy.isOwn
  obtain ⟨t, there, tearing⟩ : ∃ t, briefDying.tasks[0]? = some t ∧
      t.activity = .tearing (Pair.teardown ⟨30000, 30001, 0, 1⟩) := ⟨_, rfl, rfl⟩
  have hheld := (dying_backend_is_withdrawn hown there).2 _ tearing 30001 (by decide)
  exact ⟨rfl, routes_briefDying, hheld.2.2 reach_briefDying routes_briefDying⟩

end Runs

end Pool

end OnionPool
