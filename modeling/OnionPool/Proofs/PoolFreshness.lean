import Mathlib.Order.Bounds.Basic
import OnionPool.Proofs.PoolUndoing

/-!
# The registry is fresh

A pair that is registered serves until something ends its service: the signal to stop, the reap of
one of its processes, or the end of its lifetime. It starts to retire at that very moment. So when
the clock is about to move on, every port in the registry is that of a pair that is alive and young
enough, and there are as many pairs as the pool is to have.

## Structure

- `Ends` lists the moments that end the service of a pair.
- `Timely` is the invariant: no pair serves after such a moment. `Timely.step` keeps it through
  every step, and `Timely.tick` when the clock moves on.
- `Fresh` is what can be seen when nothing more happens of itself, and `registry_is_fresh` puts
  everything together.
- `brief` is a pool whose pair serves for its whole lifetime, since `quiet_of_serving` lets the
  clock move on.
-/

namespace OnionPool.Pool

/-! ## Pairs that serve -/

/-- The task of a pair that serves since some time. -/
def serving (pair : Pair) (since : Time) : Task := ⟨.registered, none, some pair, .serving since⟩

/-- The moments that end the service of a pair, as far as they are known: the end of its lifetime,
the signal to stop, and the reap of one of its processes. -/
inductive Ends (p : Pool) (done : List (Time × Action)) (pair : Pair) (since : Time) :
    Time → Prop where
  | expired : Ends p done pair since (since + p.plan.lifetime)
  | raised {e : Time} (raised : (e, .raise) ∈ done) : Ends p done pair since e
  /-- Nobody is left who could raise the signal. -/
  | deserted {e : Time} (deserted : (e, .desert) ∈ done) : Ends p done pair since e
  | circuit {e : Time} (reaped : p.site.reapedAt? pair.circuit = some e) : Ends p done pair since e
  | forwarder {e : Time} (reaped : p.site.reapedAt? pair.forwarder = some e) :
      Ends p done pair since e

section Steps

variable {now e since : Time} {p q : Pool} {t t' : Task} {a : Action} {i : Nat} {pair : Pair}
  {done : List (Time × Action)}

/-- A step makes known no moment but the present one. -/
theorem Ends.of_step (h : Ends q (done ++ [(now, a)]) pair since e) (change : Change now p a q) :
    Ends p done pair since e ∨ e = now := by
  have hdone : ∀ {b : Action}, (e, b) ∈ done ++ [(now, a)] → (e, b) ∈ done ∨ e = now := by
    intro b hb
    rcases List.mem_append.mp hb with hb | hb
    · exact .inl hb
    · cases List.mem_singleton.mp hb
      exact .inr rfl
  have hreaped : ∀ {w : WorkerId}, q.site.reapedAt? w = some e →
      p.site.reapedAt? w = some e ∨ e = now := by
    intro w hw
    rcases change.reapedAt_cases w with hkept | ⟨-, hnow⟩
    · exact .inl (hkept ▸ hw)
    · exact .inr (Option.some.inj (hw.symm.trans hnow))
  cases h with
  | expired =>
    rw [change.plan_eq]
    exact .inl .expired
  | raised raised => exact (hdone raised).imp_left .raised
  | deserted deserted => exact (hdone deserted).imp_left .deserted
  | circuit reaped => exact (hreaped reaped).imp_left .circuit
  | forwarder reaped => exact (hreaped reaped).imp_left .forwarder

/-- A pair begins to serve when its port is registered. -/
theorem Move.of_serving (h : Move now p t t' q) (serves : t' = serving pair since) :
    since = now ∧ t = ⟨.registered, none, some pair, .entering⟩ ∧
      q.proxy = p.proxy.register pair.forwarderPort := by
  cases h with
  | register => cases serves; exact ⟨rfl, rfl, rfl⟩
  | _ => cases serves

/-- Whoever serves after a step has done so before, or was registered by it. -/
theorem Change.of_serving (h : Change now p a q)
    (serves : q.tasks[i]? = some (serving pair since)) :
    p.tasks[i]? = some (serving pair since) ∨
      since = now ∧ p.tasks[i]? = some ⟨.registered, none, some pair, .entering⟩ ∧
        q.proxy = p.proxy.register pair.forwarderPort := by
  cases h with
  | admitPair =>
    -- The task that is admitted does not serve yet.
    by_cases hlt : i < p.tasks.length
    · rw [List.getElem?_append_left hlt] at serves
      exact .inl serves
    · rw [List.getElem?_append_right (Nat.not_lt.mp hlt)] at serves
      cases List.mem_singleton.mp (List.mem_of_getElem? serves)
  | task j b u u' r there move =>
    by_cases hji : j = i
    · subst hji
      rw [List.getElem?_set_self (List.getElem?_eq_some_iff.mp there).1] at serves
      obtain ⟨hnow, hbefore, hproxy⟩ := move.of_serving (Option.some.inj serves)
      exact .inr ⟨hnow, hbefore ▸ there, hproxy⟩
    · exact .inl ((List.getElem?_set_ne hji).symm.trans serves)
  | _ => exact .inl serves

/-- The service of a pair ends with a reason to retire it. -/
theorem Move.of_served (h : Move now p t t' q) (serves : t = serving pair since) :
    t' = ⟨.registered, none, some pair, .leaving .retire⟩ ∧
      ∃ reason, pair.mayRetire now p.stop p.plan.lifetime since p.site reason = true := by
  cases h with
  | retire _ _ reason due => cases serves; exact ⟨rfl, reason, due⟩
  | _ => cases serves

/-- Whoever serves goes on, or begins to retire for a reason. -/
theorem Change.of_served (h : Change now p a q)
    (there : p.tasks[i]? = some (serving pair since)) :
    q.tasks[i]? = some (serving pair since) ∨
      q.tasks[i]? = some ⟨.registered, none, some pair, .leaving .retire⟩ ∧
        ∃ reason, pair.mayRetire now p.stop p.plan.lifetime since p.site reason = true := by
  have hlt := (List.getElem?_eq_some_iff.mp there).1
  cases h with
  | admitPair => exact .inl ((List.getElem?_append_left hlt).trans there)
  | task j b u u' r hj move =>
    by_cases hji : j = i
    · subst hji
      obtain ⟨rfl, hreason⟩ := move.of_served (Option.some.inj (hj.symm.trans there))
      exact .inr ⟨List.getElem?_set_self hlt, hreason⟩
    · exact .inl ((List.getElem?_set_ne hji).trans there)
  | _ => exact .inl there

/-- When the pool is quiet, there is no reason to retire a pair that serves. -/
theorem mayRetire_of_quiet (quiet : machine.Quiet now p)
    (there : p.tasks[i]? = some (serving pair since)) (reason : RetireReason) :
    pair.mayRetire now p.stop p.plan.lifetime since p.site reason = false := by
  have hretire := quiet_task quiet there (.retire reason)
  cases hmay : pair.mayRetire now p.stop p.plan.lifetime since p.site reason with
  | false => rfl
  | true => simp [taskStep, serving, hmay] at hretire

end Steps

/-! ## The invariant -/

/-- What is known of the past, and that no pair serves after a moment that ends its service, but for
the moment at which it was registered. -/
structure Timely (done : List (Time × Action)) (now : Time) (p : Pool) : Prop where
  stopped : p.stop.isOver = true ↔ ∃ e, (e, Action.raise) ∈ done ∨ (e, Action.desert) ∈ done
  past : ∀ x ∈ done, x.1 ≤ now
  reaped : ∀ w e, p.site.reapedAt? w = some e → e ≤ now
  closing : p.runner = .draining ∨ p.runner = .returned → p.stop.isOver = true
  punctual : ∀ (i : Nat) (pair : Pair) (since : Time), p.tasks[i]? = some (serving pair since) →
    since ≤ now ∧ ∀ e, Ends p done pair since e → now ≤ max since e

section Invariant

variable {now e since : Time} {p q : Pool} {a : Action} {i : Nat} {pair : Pair}
  {done : List (Time × Action)}

/-- The invariant is kept by every step. -/
theorem Timely.step (h : Timely done now p) (change : Change now p a q) :
    Timely (done ++ [(now, a)]) now q := by
  have hover := change.isOver_iff
  constructor
  case stopped =>
    rw [hover, h.stopped]
    simp only [List.mem_append, List.mem_singleton, Prod.mk.injEq]
    constructor
    · rintro (⟨e, hraised | hdeserted⟩ | rfl | rfl)
      · exact ⟨e, .inl (.inl hraised)⟩
      · exact ⟨e, .inr (.inl hdeserted)⟩
      · exact ⟨now, .inl (.inr ⟨rfl, rfl⟩)⟩
      · exact ⟨now, .inr (.inr ⟨rfl, rfl⟩)⟩
    · rintro ⟨e, (hraised | ⟨-, rfl⟩) | (hdeserted | ⟨-, rfl⟩)⟩
      · exact .inl ⟨e, .inl hraised⟩
      · exact .inr (.inl rfl)
      · exact .inl ⟨e, .inr hdeserted⟩
      · exact .inr (.inr rfl)
  case past =>
    have hlast : ∀ x ∈ [(now, a)], x.1 ≤ now := List.forall_mem_singleton.mpr (Nat.le_refl _)
    exact List.forall_mem_append.mpr ⟨h.past, hlast⟩
  case reaped =>
    intro w e hw
    rcases change.reapedAt_cases w with hkept | ⟨-, hnow⟩
    · exact h.reaped w e (hkept ▸ hw)
    · cases hw.symm.trans hnow
      exact Nat.le_refl _
  case closing =>
    intro hrunner
    rw [hover]
    cases change with
    -- Whoever still admits pairs is not closing.
    | begin => rcases hrunner with hrunner | hrunner <;> cases hrunner
    | close runner stopping => exact .inl stopping
    | finish runner => exact .inl (h.closing (.inl runner))
    | task j b u u' r there move =>
      have hsame : r.runner = p.runner := move.frame.2.2.2
      exact .inl (h.closing (hsame ▸ hrunner))
    | _ => exact .inl (h.closing hrunner)
  case punctual =>
    intro i pair since hserves
    rcases change.of_serving hserves with hbefore | ⟨rfl, -⟩
    · obtain ⟨hsince, hends⟩ := h.punctual i pair since hbefore
      refine ⟨hsince, fun e he => ?_⟩
      rcases he.of_step change with he | rfl
      · exact hends e he
      · exact le_max_right ..
    · exact ⟨Nat.le_refl _, fun e _ => le_max_left ..⟩

/-- A moment that ends the service of a pair lies ahead when the clock is about to move on. -/
theorem Timely.lt_of_quiet (h : Timely done now p) (quiet : machine.Quiet now p)
    (there : p.tasks[i]? = some (serving pair since)) (ends : Ends p done pair since e) :
    now < e := by
  have hnone := mayRetire_of_quiet quiet there
  have halive : ∀ {w : WorkerId}, p.site.isReaped w = false → p.site.reapedAt? w ≠ some e := by
    intro w hw he
    rw [Site.isReaped_eq, he] at hw
    cases hw
  have hrunning : p.stop.isOver = false := hnone .shutdown
  cases ends with
  | expired => exact Nat.not_le.mp (of_decide_eq_false (hnone .expired))
  | raised raised =>
    rw [h.stopped.mpr ⟨e, .inl raised⟩] at hrunning
    cases hrunning
  | deserted deserted =>
    rw [h.stopped.mpr ⟨e, .inr deserted⟩] at hrunning
    cases hrunning
  | circuit reaped => exact absurd reaped (halive (hnone .circuitExited))
  | forwarder reaped => exact absurd reaped (halive (hnone .forwarderExited))

/-- When the pool is quiet, no service is over, and the clock moves on. -/
theorem Timely.tick (h : Timely done now p) (quiet : machine.Quiet now p) :
    Timely done (now + 1) p where
  stopped := h.stopped
  past x hx := Nat.le_succ_of_le (h.past x hx)
  reaped w e he := Nat.le_succ_of_le (h.reaped w e he)
  closing := h.closing
  punctual i pair since there := by
    refine ⟨Nat.le_succ_of_le (h.punctual i pair since there).1, fun e he => ?_⟩
    exact (Nat.succ_le_of_lt (h.lt_of_quiet quiet there he)).trans (le_max_right ..)

/-- Whenever there is a reason to retire a pair, a moment that ends its service has come. -/
theorem Timely.exists_end (h : Timely done now p) {reason : RetireReason}
    (may : pair.mayRetire now p.stop p.plan.lifetime since p.site reason = true) :
    ∃ e ≤ now, Ends p done pair since e := by
  have hreaped : ∀ {w : WorkerId}, p.site.isReaped w = true →
      ∃ e ≤ now, p.site.reapedAt? w = some e := by
    intro w hw
    rw [Site.isReaped_eq] at hw
    obtain ⟨e, he⟩ := Option.isSome_iff_exists.mp hw
    exact ⟨e, h.reaped w e he, he⟩
  cases reason with
  | shutdown =>
    obtain ⟨e, hraised | hdeserted⟩ := h.stopped.mp may
    · exact ⟨e, h.past _ hraised, .raised hraised⟩
    · exact ⟨e, h.past _ hdeserted, .deserted hdeserted⟩
  | circuitExited =>
    obtain ⟨e, hle, he⟩ := hreaped may
    exact ⟨e, hle, .circuit he⟩
  | forwarderExited =>
    obtain ⟨e, hle, he⟩ := hreaped may
    exact ⟨e, hle, .forwarder he⟩
  | expired => exact ⟨since + p.plan.lifetime, of_decide_eq_true may, .expired⟩

/-- The invariant holds in every run. -/
theorem Timely.of_trace {plan : Plan} {proxyPlan : Proxy.Plan} {range : PortRange}
    {folders : List (Seat × Contents)}
    (run : machine.Trace Action.IsOwn 0 (opening plan proxyPlan range folders) done now p) :
    Timely done now p := by
  induction run with
  | refl =>
    constructor
    case stopped => simp [opening, StopSignal.isOver, StopSignal.new]
    case past => exact List.forall_mem_nil _
    case reaped => intro w e hw; cases hw
    case closing => rintro (hrunner | hrunner) <;> cases hrunner
    case punctual => intro i pair since there; cases there
  | act run ha hs ih =>
    have haccounts := (Accounts.of_reach (Machine.Reach.append .start run.run)).2
    exact ih.step (change_of_step haccounts.proper hs)
  | tick run hq ih => exact ih.tick hq

end Invariant

/-! ## What can be seen -/

/-- What can be seen when nothing more happens of itself. -/
structure Fresh (now : Time) (p : Pool) : Prop where
  /-- Unless the pool is to stop, there are as many pairs as it is to have. -/
  full : p.stop.isOver = false → p.available = 0 ∧ p.tasks.countP (·.holdsPermit) = p.plan.size
  /-- The pair that owns a port in the registry serves, its processes are there and not reaped, and
  it was registered less than its lifetime ago. -/
  young : p.stop.isOver = false → ∀ port ∈ p.proxy.registry, ∃ t ∈ p.tasks, port ∈ t.ports ∧
    ∃ pair since, t = serving pair since ∧ port = pair.forwarderPort ∧
      (∀ w ∈ [pair.circuit, pair.forwarder], ∃ process, p.site.process? w = some process ∧
        process.reaped? = none) ∧
      now < since + p.plan.lifetime
  empty : p.stop.isOver = true → p.proxy.registry = .empty

section Quiet

variable {now : Time} {p : Pool} {t : Task} {i : Nat} {port : Port}

/-- When the pool is quiet, only pairs that serve have their port in the registry. -/
theorem Task.Proper.serving_of_quiet (h : t.Proper) (quiet : machine.Quiet now p)
    (there : p.tasks[i]? = some t) (advertised : port ∈ t.advertised) :
    ∃ pair since, t = Pool.serving pair since ∧ port = pair.forwarderPort := by
  have hproceed := quiet_task quiet there .proceed
  cases h with
  | serving pair since => exact ⟨pair, since, rfl, List.mem_singleton.mp advertised⟩
  -- Whoever has ended its service, or is about to withdraw its port, goes on at once.
  | served | retiring => cases hproceed
  | failing s early | pausing s early | paused s early | stopped s early =>
    rcases early with rfl | rfl <;> cases advertised
  | _ => cases advertised

/-- When the pool is quiet, every port of the registry is one of a pair that serves. -/
theorem Accounts.exists_serving (h : Accounts p) (quiet : machine.Quiet now p)
    (registered : port ∈ p.proxy.registry) : ∃ (i : Nat) (pair : Pair) (since : Time),
      p.tasks[i]? = some (serving pair since) ∧ port = pair.forwarderPort := by
  have hpresent := PortSet.count_pos_iff.mpr registered
  rw [← h.registry port, total_count, List.count_pos_iff] at hpresent
  obtain ⟨t, ht, hadvertised⟩ := List.mem_flatMap.mp hpresent
  obtain ⟨i, there⟩ := List.mem_iff_getElem?.mp ht
  obtain ⟨pair, since, rfl, hport⟩ := (h.proper t ht).serving_of_quiet quiet there hadvertised
  exact ⟨i, pair, since, there, hport⟩

/-- When the pool is quiet, its registry is fresh. -/
theorem Timely.fresh {done : List (Time × Action)} (h : Timely done now p) (accounts : Accounts p)
    (ownership : Ownership p) (quiet : machine.Quiet now p) (running : p.runner ≠ .waiting) :
    Fresh now p where
  full hover := by
    have hadmitting : p.runner = .admitting := by
      cases hrunner : p.runner with
      | waiting => exact absurd hrunner running
      | admitting => rfl
      | draining | returned =>
        have hclosing := h.closing (by simp [hrunner])
        rw [hover] at hclosing
        cases hclosing
    -- Another pair would be admitted.
    have hnone : p.available = 0 := by
      have hadmit : p.runnerStep .admitPair = none := quiet .admitPair rfl
      by_contra hsome
      simp [runnerStep, hadmitting, hover, Nat.pos_of_ne_zero hsome] at hadmit
    refine ⟨hnone, ?_⟩
    have hpermits := accounts.permits
    rwa [hnone, Nat.zero_add, total_toNat] at hpermits
  young hover port registered := by
    obtain ⟨i, pair, since, there, rfl⟩ := accounts.exists_serving quiet registered
    have hmem := List.mem_of_getElem? there
    have hmay := mayRetire_of_quiet quiet there
    have halive : ∀ w, .stop w ∈ pair.teardown → p.site.isReaped w = false →
        ∃ process, p.site.process? w = some process ∧ process.reaped? = none := by
      intro w hw hunreaped
      obtain ⟨worker, hthere, -⟩ := ownership.spared _ hmem w hw
      have hprocess : p.site.process? w = some worker.process :=
        Option.map_eq_some_iff.mpr ⟨worker, hthere, rfl⟩
      refine ⟨worker.process, hprocess, ?_⟩
      simpa [Site.isReaped, hprocess] using hunreaped
    refine ⟨_, hmem, List.mem_cons_self .., pair, since, rfl, rfl, fun w hw => ?_, ?_⟩
    · rcases List.mem_pair.mp hw with rfl | rfl
      · exact halive _ (by simp [Pair.teardown]) (hmay .circuitExited)
      · exact halive _ (by simp [Pair.teardown]) (hmay .forwarderExited)
    · exact h.lt_of_quiet quiet there .expired
  empty hover := by
    apply PortSet.ext
    intro port
    refine iff_of_false (fun registered => ?_) (PortSet.not_mem_empty port)
    -- A pair that serves would retire.
    obtain ⟨i, pair, since, there, -⟩ := accounts.exists_serving quiet registered
    have hmay := mayRetire_of_quiet quiet there .shutdown
    rw [show p.stop.isOver = false from hmay] at hover
    cases hover

/-- A pool whose pairs all serve is quiet until the first of their lifetimes is over. -/
theorem quiet_of_serving (runner : p.runner = .admitting) (running : p.stop.isOver = false)
    (full : p.available = 0)
    (tasks : ∀ t ∈ p.tasks, ∃ pair since, t = serving pair since ∧ now < since + p.plan.lifetime)
    (proxy : Proxy.machine.Quiet now p.proxy)
    (workers : ∀ w ∈ p.site.workers, w.isHeld = true ∧ w.process = .fresh) :
    machine.Quiet now p := by
  have halive : ∀ w, p.site.isReaped w = false := by
    intro w
    cases hthere : p.site.workers[w]? with
    | none => simp [Site.isReaped, Site.process?, hthere]
    | some worker =>
      have hfresh := (workers worker (List.mem_of_getElem? hthere)).2
      simp [Site.isReaped, Site.process?, hthere, hfresh, Process.fresh, Process.reaped?]
  -- The runner has no permit, no pair has a reason to retire, and no process is asked.
  refine quiet_of_parts (fun a => ?_) (fun t ht a => ?_) proxy fun w hw a ha => ?_
  · cases a <;> simp [runnerStep, runner, running, full]
  · obtain ⟨pair, since, rfl, hearly⟩ := tasks t ht
    have hmay : ∀ reason,
        pair.mayRetire now p.stop p.plan.lifetime since p.site reason = false := by
      intro reason
      cases reason with
      | shutdown => exact running
      | circuitExited => exact halive pair.circuit
      | forwarderExited => exact halive pair.forwarder
      | expired => exact decide_eq_false (Nat.not_le.mpr hearly)
    cases a with
    | retire reason => simp [taskStep, serving, hmay]
    | _ => rfl
  · obtain ⟨hheld, hfresh⟩ := workers w hw
    rw [hheld, hfresh]
    exact Process.quiet_of_unasked rfl rfl rfl rfl ha

end Quiet

/-! ## All runs -/

section Runs

variable {plan : Plan} {proxyPlan : Proxy.Plan} {range : PortRange}
  {folders : List (Seat × Contents)} {now : Time} {p : Pool} {done : List (Time × Action)}

/-- **The registry is fresh**, in every run. The plan stays what it is. Whenever nothing more
happens of itself, and the pool has begun to admit pairs: if it is not to stop, no permit is left,
and every port in the registry is that of a pair that is alive and was registered less than its
lifetime ago; and if it is to stop, the registry is empty. A pair serves from the moment at which
its port is put into the registry, and starts to retire exactly at the first moment from then on at
which its service has ended. -/
theorem registry_is_fresh
    (run : machine.Trace Action.IsOwn 0 (opening plan proxyPlan range folders) done now p) :
    p.plan = plan ∧ (machine.Quiet now p → p.runner ≠ .waiting → Fresh now p) ∧
    (∀ (i : Nat) (pair : Pair) (since : Time), p.tasks[i]? = some (serving pair since) →
      (since ≤ now ∧ ∀ e, Ends p done pair since e → now ≤ max since e) ∧
      ∀ a q, p.step now a = some q → q.tasks[i]? = some (serving pair since) ∨
        q.tasks[i]? = some ⟨.registered, none, some pair, .leaving .retire⟩ ∧
          IsLeast {time | since ≤ time ∧ ∃ e ≤ time, Ends p done pair since e} now) ∧
    ∀ (i : Nat) (pair : Pair) (since : Time) a q, p.step now a = some q →
      q.tasks[i]? = some (serving pair since) → p.tasks[i]? = some (serving pair since) ∨
        since = now ∧ pair.forwarderPort ∉ p.proxy.registry ∧
          pair.forwarderPort ∈ q.proxy.registry := by
  have hreach := Machine.Reach.append .start run.run
  have hownership := (Ownership.of_reach hreach).2
  obtain ⟨hplan, haccounts⟩ := Accounts.of_reach hreach
  have htimely := Timely.of_trace run
  refine ⟨hplan, htimely.fresh haccounts hownership, fun i pair since there => ?_,
    fun i pair since a q hs there' => ?_⟩
  · obtain ⟨hsince, hends⟩ := htimely.punctual i pair since there
    refine ⟨⟨hsince, hends⟩, fun a q hs => ?_⟩
    -- It retires for a reason, that is at some end; and no end lies before, for it was punctual.
    rcases (change_of_step haccounts.proper hs).of_served there with hserves |
      ⟨hretires, reason, hmay⟩
    · exact .inl hserves
    · refine .inr ⟨hretires, ⟨hsince, htimely.exists_end hmay⟩, ?_⟩
      rintro time ⟨hafter, e, hle, he⟩
      exact (hends e he).trans (max_le hafter hle)
  · rcases (change_of_step haccounts.proper hs).of_serving there' with hbefore |
      ⟨rfl, hthere, hproxy⟩
    · exact .inl hbefore
    · have hnew := haccounts.not_mem_registry hthere (List.mem_cons_self ..) rfl
      refine .inr ⟨rfl, hnew, ?_⟩
      rw [hproxy, Proxy.register, Proxy.registry_request]
      exact PortSet.mem_insert.mpr (.inl rfl)

/-- A pool for one pair, whose lifetime is short. -/
def brief : Pool :=
  opening ⟨1, 100, 4⟩ ⟨⟨8080, none, 256, .roundRobin⟩, ⟨20, 100, 100⟩, "haproxy"⟩ ⟨30000, 30010⟩ []

/-- A pair comes to serve, and a burst is open. -/
def serve : List Action := serveAndRaise.dropLast

/-- The burst is over, and an instance that knows the port of the pair takes over. -/
def connect : List Action := [
  .proxy .expire, .proxy (.write none), .proxy (.rename none), .proxy (.spawn 2 0), .proxy .judge]

def briefServing : Pool := (machine.play 0 serve brief).getD brief

def briefConnected : Pool := (machine.play 20 connect briefServing).getD brief

theorem play_briefServing : machine.play 0 serve brief = some briefServing := rfl

theorem play_briefConnected : machine.play 20 connect briefServing = some briefConnected := rfl

/-- The pair serves, and the loop waits for the end of the burst. -/
theorem quiet_briefServing {now : Time} (early : now < 20) : machine.Quiet now briefServing := by
  refine quiet_of_serving rfl rfl rfl (fun t ht => ?_) (Proxy.quiet_of_resting ?_) ?_
  · exact ⟨_, _, List.mem_singleton.mp ht, early.trans (by decide)⟩
  · refine ⟨.inr ⟨0, 0, _, rfl, early⟩, rfl, rfl, fun g hg => ?_, rfl,
      fun i process there a ha => ?_⟩
    · cases hg
    · match i with
      | 0 => cases there; exact Process.quiet_of_unasked rfl rfl rfl rfl ha
      | i + 1 => cases there
  · intro w hw
    rcases List.mem_pair.mp hw with rfl | rfl <;> exact ⟨rfl, rfl⟩

/-- The pair serves, the instance is in place, and the one before it may finish its connections. -/
theorem quiet_briefConnected {now : Time} (early : now < 100) :
    machine.Quiet now briefConnected := by
  refine quiet_of_serving rfl rfl rfl (fun t ht => ?_) (Proxy.quiet_of_resting ?_) ?_
  · exact ⟨_, _, List.mem_singleton.mp ht, early⟩
  · refine ⟨.inl rfl, rfl, rfl, fun g hg => ?_, rfl, fun i process there a ha => ?_⟩
    · cases List.mem_singleton.mp hg
      refine ⟨rfl, early.trans (by decide), fun process there => ?_⟩
      cases there
      rfl
    · match i with
      | 0 | 1 => cases there; exact Process.quiet_of_unasked rfl rfl rfl rfl ha
      | i + 2 => cases there
  · intro w hw
    rcases List.mem_pair.mp hw with rfl | rfl <;> exact ⟨rfl, rfl⟩

/-- What happens until the lifetime of the pair is over. -/
def briefDone : List (Time × Action) := serve.map (0, ·) ++ connect.map (20, ·)

theorem trace_briefConnected {allowed : Action → Prop} (ha : ∀ a ∈ serve ++ connect, allowed a)
    {now : Time} (since : 20 ≤ now) (early : now ≤ 100) :
    machine.Trace allowed 0 brief briefDone now briefConnected := by
  have hserves : machine.Trace allowed 0 brief ([] ++ serve.map (0, ·)) 0 briefServing :=
    .play .refl (fun a h => ha a (List.mem_append_left _ h)) play_briefServing
  have hwaits := hserves.wait (Nat.zero_le 20) fun _ hlt => quiet_briefServing hlt
  have hconnects : machine.Trace allowed 0 brief briefDone 20 briefConnected :=
    .play hwaits (fun a h => ha a (List.mem_append_right _ h)) play_briefConnected
  exact hconnects.wait since fun _ hlt => quiet_briefConnected (hlt.trans_le early)

/-- The only pair serves until its lifetime is over at time 100, and not any longer. -/
theorem registry_is_fresh_brief :
    machine.Trace Action.IsOwn 0 brief briefDone 99 briefConnected ∧
      machine.Quiet 99 briefConnected ∧ Fresh 99 briefConnected ∧
      briefConnected.proxy.registry.toList = [30001] ∧
      ∃ q, briefConnected.step 100 (.task 0 (.retire .expired)) = some q ∧
        IsLeast {time | 0 ≤ time ∧
          ∃ e ≤ time, Ends briefConnected briefDone ⟨30000, 30001, 0, 1⟩ 0 e} 100 := by
  have htrace : machine.Trace Action.IsOwn 0 brief briefDone 99 briefConnected := by
    refine trace_briefConnected ?_ (by decide) (by decide)
    simp [serve, serveAndRaise, connect, Action.IsOwn, Proxy.Action.KeepsRegistry]
  have hquiet : machine.Quiet 99 briefConnected := quiet_briefConnected (by decide)
  have hfresh : Fresh 99 briefConnected := (registry_is_fresh htrace).2.1 hquiet (by decide)
  have hserves := (registry_is_fresh (.tick htrace hquiet)).2.2.1 0 _ 0 rfl
  refine ⟨htrace, hquiet, hfresh, rfl, _, rfl, ?_⟩
  rcases hserves.2 (.task 0 (.retire .expired)) _ rfl with hstays | ⟨-, hleast⟩
  · cases hstays
  · exact hleast

end Runs

end OnionPool.Pool
