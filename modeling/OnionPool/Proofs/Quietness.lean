import OnionPool.Proofs.PoolAccounting
import OnionPool.Proofs.ProcessTransition
import OnionPool.Proofs.ProxyInstances

/-!
# When nothing happens of itself

The clock moves on when no urgent action is possible. There are infinitely many actions, but each
of them needs something of the state that can be looked up.

## Structure

- `Process.quiet_of_unasked`, `Process.quiet_of_draining` and `Process.quiet_of_over` say when a
  process is quiet: it runs and nobody wants it to end, its output is still open, or it has ended
  and everybody knows.
- `Proxy.quiet_of_resting` says when the reverse proxy is, `Pool.quiet_of_parts` when a pool is, and
  `Pool.quiet_of_returned` when a pool is that has returned.
- `PairLife.quiet_of_failed` says when a pair by itself is quiet that has failed to start.
- `Proxy.quiet_process`, `PairLife.quiet_worker`, `Pool.quiet_worker` and `Pool.quiet_task` pass
  quietness on to the processes and the tasks.
-/

namespace OnionPool

/-! ## Processes -/

namespace Process

variable {held : Bool} {now : Time} {p : Process} {a : Action}

/-- Nothing happens of itself to a process that runs, is held, and whose termination nobody asked
for. -/
theorem quiet_of_unasked (phase : p.phase = .watching) (ended : p.ended = none)
    (slot : p.slot = none) (calls : p.calls = []) (ha : a.isUrgent = true) :
    p.step true now a = none := by
  cases h : p.step true now a with
  | none => rfl
  | some q =>
    -- Each urgent step needs an end, a request, a caller, or that nobody holds the process.
    have hcall : ∀ (i : CallId) (c : Call), p.calls[i]? ≠ some c := by simp [calls]
    cases transition_of_step h with
    | terminate | finish | drain => cases ha
    | reap outcome _ ended' => rw [ended] at ended'; cases ended'
    | take i _ slot' | takeFirst i j rest _ slot' => rw [slot] at slot'; cases slot'
    | abandon _ unheld => cases unheld
    | collect phase' | answer i phase' | resist phase' | deny i phase'
    | publish outcome since phase' =>
      rw [phase] at phase'
      cases phase'
    | giveUp i call => exact absurd call (not_or.mpr ⟨hcall i _, hcall i _⟩)
    | lookLate i call | look i call | sendLate i call | send i call | queue i j call
    | leave i call => exact absurd call (hcall i _)

/-- Nothing happens of itself to a process that has ended, and all of whose callers know. -/
theorem quiet_of_over {outcome : Outcome} {reapedAt exitedAt : Time}
    (phase : p.phase = .finished outcome reapedAt exitedAt) (idle : p.isIdle = true)
    (ha : a.isUrgent = true) : p.step held now a = none := by
  cases h : p.step held now a with
  | none => rfl
  | some q =>
    -- All callers have returned, and the monitor has come to its last phase.
    have hcall : ∀ (i : CallId) (c : Call), c ≠ .returned → p.calls[i]? ≠ some c := by
      intro i c hc hi
      have hreturned := List.all_eq_true.mp idle c (List.mem_of_getElem? hi)
      exact hc (of_decide_eq_true hreturned)
    cases transition_of_step h with
    | terminate | finish | drain => cases ha
    | reap outcome' phase' | take i phase' | takeFirst i j rest phase' | abandon phase'
    | collect phase' | answer i phase' | resist phase' | deny i phase'
    | publish outcome' since phase' =>
      rw [phase] at phase'
      cases phase'
    | giveUp i call =>
      exact absurd call (not_or.mpr ⟨hcall i _ (by decide), hcall i _ (by decide)⟩)
    | lookLate i call | look i call | sendLate i call | send i call | queue i j call
    | leave i call => exact absurd call (hcall i _ (by decide))

/-- Nothing happens of itself to a process that was reaped while its output is open and the drain
grace is not over, if all callers wait for that. -/
theorem quiet_of_draining {outcome : Outcome} {reapedAt : Time}
    (phase : p.phase = .draining outcome reapedAt) (open_ : p.drainedAt = none)
    (early : now < reapedAt + drainGrace)
    (calls : ∀ c ∈ p.calls, c ≠ .entered ∧ c ≠ .sending) (ha : a.isUrgent = true) :
    p.step held now a = none := by
  cases h : p.step held now a with
  | none => rfl
  | some q =>
    have hexited : p.exited? = none := by simp only [exited?, phase]
    -- The monitor waits for the output or the grace, and the callers for the monitor.
    cases transition_of_step h with
    | terminate | finish | drain => cases ha
    | reap outcome' phase' | take i phase' | takeFirst i j rest phase' | abandon phase'
    | collect phase' | answer i phase' | resist phase' | deny i phase' =>
      rw [phase] at phase'
      cases phase'
    | publish outcome' since phase' due =>
      cases phase.symm.trans phase'
      rw [open_] at due
      rcases due with due | due
      · cases due
      · exact absurd due (Nat.not_le.mpr early)
    | lookLate i call | look i call =>
      exact absurd rfl (calls _ (List.mem_of_getElem? call)).1
    | sendLate i call | send i call | queue i j call =>
      exact absurd rfl (calls _ (List.mem_of_getElem? call)).2
    | giveUp i call exited | leave i call exited =>
      rw [hexited] at exited
      cases exited

end Process

/-! ## The reverse proxy -/

namespace Proxy

/-- The reverse proxy waits for requests or for the end of a burst, its retirements wait for the end
of their grace, and it was not told to stop. -/
structure Resting (now : Time) (p : Proxy) : Prop where
  loop : p.loop = .idle ∨ ∃ openedAt latestAt rs, p.loop = .pending openedAt latestAt rs ∧
    now < deadline p.plan.timings openedAt latestAt
  slot : p.slot = none
  stop : p.stop = false
  graces : ∀ g ∈ p.graces, g.stage = .waiting ∧ now < g.since + p.plan.timings.grace ∧
    ∀ process, p.process? g.retired = some process → process.exited? = none
  closings : p.closings = []
  processes : ∀ i process, p.process? i = some process → ∀ a, a.isUrgent = true →
    process.step (p.holds i) now a = none

/-- A proxy that rests is quiet. -/
theorem quiet_of_resting {now : Time} {p : Proxy} (h : Resting now p) : machine.Quiet now p := by
  intro a ha
  cases hs : machine.step now p a with
  | none => rfl
  | some q =>
    -- The loop waits, so none of the steps of a job can be taken.
    have hworking : ∀ job stage, p.loop ≠ .working job stage := by
      intro job stage hloop
      rcases h.loop with hidle | ⟨openedAt, latestAt, rs, hpending, -⟩
      · rw [hloop] at hidle; cases hidle
      · rw [hloop] at hpending; cases hpending
    cases transition_of_step hs with
    | register | deregister | insert | remove | request | reloadNow | shutdown | tamper => cases ha
    | openBurst r slot | prolong r _ _ _ slot | answer r slot | endBurst r _ _ _ slot =>
      rw [h.slot] at slot
      cases slot
    | expire openedAt latestAt rs loop due =>
      rcases h.loop with hidle | ⟨openedAt', latestAt', rs', hpending, hlate⟩
      · rw [loop] at hidle; cases hidle
      · rw [loop] at hpending
        cases hpending
        exact absurd due (Nat.not_le.mpr hlate)
    | halt stop => rw [h.stop] at stop; cases stop
    | prepare job loop | prepareFails job _ loop | write job _ loop | writeFails job _ _ _ loop
    | writeNowhere job _ loop | rename job _ loop | renameFails job _ _ loop | spawn job _ _ loop
    | refuse job _ loop | succeed job _ _ _ loop | failEarly job _ _ _ _ loop =>
      exact absurd loop (hworking job _)
    | endGrace i g process grace there _ due =>
      obtain ⟨hg, rfl⟩ := mem_of_grace? grace
      -- Its grace is not over, and its instance is still alive.
      obtain ⟨-, hearly, halive⟩ := h.graces g hg
      rcases due with hexited | hdue
      · rw [halive process there] at hexited
        cases hexited
      · exact absurd hdue (Nat.not_le.mpr hearly)
    | forget i g call grace stage =>
      have hwaiting := (h.graces g (mem_of_grace? grace).1).1
      rw [stage] at hwaiting
      cases hwaiting
    | join c closing | killNext c _ _ _ closing | skipNext c _ _ closing | killed c _ _ _ closing
    | clear c closing | forgo c _ _ closing =>
      rw [h.closings] at closing
      cases closing
    | process i a process process' there _ step =>
      rw [h.processes i process there a ha] at step
      cases step

/-- When the reverse proxy is quiet, all processes of its instances are. -/
theorem quiet_process {now : Time} {p : Proxy} {i : InstanceId} {process : Process}
    (quiet : machine.Quiet now p) (there : p.process? i = some process) {a : Process.Action}
    (ha : a.isUrgent = true) : process.step (p.holds i) now a = none := by
  have hstep : p.processStep now i a = none := quiet (.process i a) ha
  unfold processStep at hstep
  split at hstep
  next => cases ha
  next =>
    rw [there, Option.bind_eq_bind, Option.bind_some] at hstep
    cases hprocess : process.step (p.holds i) now a with
    | none => rfl
    | some process' => simp [hprocess] at hstep

end Proxy

/-! ## A pair by itself -/

namespace PairLife

variable {now : Time} {l : PairLife}

/-- When a pair is quiet, all its processes are. -/
theorem quiet_worker {w : WorkerId} {worker : Worker} (quiet : machine.Quiet now l)
    (there : l.site.workers[w]? = some worker) {b : Process.Action} (hb : b.isUrgent = true) :
    worker.process.step worker.isHeld now b = none := by
  have hstep : machine.step now l (.worker w b) = none := quiet (.worker w b) hb
  refine Site.process_step_eq_none (Option.map_eq_none_iff.mp hstep) there ?_
  rintro rfl
  cases hb

/-- Nothing happens of itself after a start has failed when nothing happens to any process. -/
theorem quiet_of_failed {cause : Failure} (failed : l.stage = .failed cause)
    (workers : ∀ w ∈ l.site.workers, ∀ b, b.isUrgent = true →
      w.process.step w.isHeld now b = none) : machine.Quiet now l := by
  intro a ha
  cases hs : machine.step now l a with
  | none => rfl
  | some l' =>
    cases transition_of_step hs with
    | raise | desert => cases ha
    | worker w b site step =>
      obtain ⟨worker, process, hthere, hstep, -⟩ := Site.processStep_eq_some step
      rw [workers worker (List.mem_of_getElem? hthere) b ha] at hstep
      cases hstep
    | startup _ _ _ _ hstage | succeed _ _ hstage | fail _ _ hstage | retire _ _ _ hstage
    | finish _ hstage | chore _ _ _ _ hstage => cases failed.symm.trans hstage

end PairLife

/-! ## The pool -/

namespace Pool

/-- When the pool is quiet, all processes of its pairs are. -/
theorem quiet_worker {now : Time} {p : Pool} {w : WorkerId} {worker : Worker}
    (quiet : machine.Quiet now p) (there : p.site.workers[w]? = some worker) {a : Process.Action}
    (ha : a.isUrgent = true) : worker.process.step worker.isHeld now a = none := by
  have hstep : machine.step now p (.worker w a) = none := quiet (.worker w a) ha
  refine Site.process_step_eq_none (Option.map_eq_none_iff.mp hstep) there ?_
  rintro rfl
  cases ha

/-- The pool is quiet when all its parts are. -/
theorem quiet_of_parts {now : Time} {p : Pool} (runner : ∀ a, p.runnerStep a = none)
    (tasks : ∀ t ∈ p.tasks, ∀ a, p.taskStep now t a = none)
    (proxy : Proxy.machine.Quiet now p.proxy)
    (workers : ∀ w ∈ p.site.workers, ∀ a, a.isUrgent = true →
      w.process.step w.isHeld now a = none) : machine.Quiet now p := by
  intro a ha
  cases a with
  | raise | desert => cases ha
  | begin => exact runner .begin
  | admitPair => exact runner .admitPair
  | close => exact runner .close
  | finish => exact runner .finish
  | proxy a => exact Option.map_eq_none_iff.mpr (proxy a ha)
  | worker w a =>
    refine Option.map_eq_none_iff.mpr ?_
    cases hsite : p.site.processStep now w a with
    | none => rfl
    | some site =>
      obtain ⟨worker, process, hthere, hstep, -⟩ := Site.processStep_eq_some hsite
      rw [workers worker (List.mem_of_getElem? hthere) a ha] at hstep
      cases hstep
  | task i a =>
    refine Option.bind_eq_none_iff.mpr fun t there => ?_
    rw [tasks t (List.mem_of_getElem? there) a]
    rfl

/-- A pool that has returned is quiet when the proxy and the processes are. -/
theorem quiet_of_returned {now : Time} {p : Pool} (returned : p.runner = .returned)
    (gone : ∀ t ∈ p.tasks, t = ⟨.done, none, none, .gone⟩) (proxy : Proxy.machine.Quiet now p.proxy)
    (workers : ∀ w ∈ p.site.workers, ∀ a, a.isUrgent = true →
      w.process.step w.isHeld now a = none) : machine.Quiet now p := by
  refine quiet_of_parts (fun a => ?_) (fun t ht a => ?_) proxy workers
  · cases a <;> simp [runnerStep, returned]
  · rw [gone t ht]
    cases a <;> rfl

/-- When the pool is quiet, no task can move. -/
theorem quiet_task {now : Time} {p : Pool} {i : Nat} {t : Task} (quiet : machine.Quiet now p)
    (there : p.tasks[i]? = some t) (a : TaskAction) : p.taskStep now t a = none := by
  have hstep : machine.step now p (.task i a) = none := quiet (.task i a) rfl
  cases htask : p.taskStep now t a with
  | none => rfl
  | some r => simp [machine, step, there, htask] at hstep

end Pool

end OnionPool
