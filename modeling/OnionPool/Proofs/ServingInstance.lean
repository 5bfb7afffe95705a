import OnionPool.Api.Respond
import OnionPool.Proofs.HandoffGrace

/-!
# The instance that serves

The number that the proxy reports is that of the instance that took over last. Nobody watches this
instance: when its program ends by itself, the number is reported until a reload replaces it, the
interface calls the application healthy, and the next start is told to take over from a process that
is no more.

## Structure

- `Spared` is the invariant: an instance that was never to be terminated was not killed.
- `serving_instance_is_unharmed` is what holds of the number before the shutdown.
- `serving_pid_outlives_program` is the run in which the program has ended.
-/

namespace OnionPool

/-! ## The instance that serves -/

namespace Proxy

/-- Whoever was never to be terminated was not killed. -/
def Spared (p : Proxy) : Prop :=
  ∀ i process, p.process? i = some process → process.calls = [] → process.Unharmed

section Invariant

variable {plan : Plan} {now : Time} {p q : Proxy} {a : Action}

/-- Nobody takes back that it has asked for a termination. -/
theorem calls_eq_nil_of_step {process process' : Process} {held : Bool} {b : Process.Action}
    (step : process.step held now b = some process') (unasked : process'.calls = []) :
    process.calls = [] := by
  by_cases hb : b = .terminate
  · subst hb
    cases step
    simp [Process.terminate] at unasked
  · have hlength := (Process.transition_of_step step).length_calls hb
    rw [unasked] at hlength
    exact List.eq_nil_of_length_eq_zero hlength.symm

/-- The invariant is kept by every step. -/
theorem Spared.step (h : Spared p) (handoffs : Handoffs plan now p) (hs : p.step now a = some q) :
    Spared q := by
  intro i process there unasked
  rcases (transition_of_step hs).process_of_step there with ⟨old, hold, rfl | ⟨b, hstep⟩⟩ | ⟨rfl, -⟩
  · exact h i process hold unasked
  · have hunasked : old.calls = [] := calls_eq_nil_of_step hstep unasked
    -- Whoever is not reaped is on the roster, and so it is held.
    have hkept : old.reaped?.isSome = true ∨ p.holds i = true :=
      (handoffs.accounted i old hold).symm.imp_right holds_of_mem_roster
    exact (h i old hold hunasked).step (handoffs.sound i old hold) hunasked hkept
      (Process.transition_of_step hstep)
  · exact .fresh

/-- The invariant holds in every run without a shutdown. -/
theorem Spared.of_reach (h : machine.Reach (· ≠ .shutdown) { plan } now p) : Spared p := by
  -- The induction is on the run: before each step the handoffs are in order.
  induction h with
  | start =>
    intro i process there
    simp [process?] at there
  | act hreach ha hs ih => exact ih.step (Handoffs.of_reach hreach) hs
  | tick _ _ ih => exact ih

theorem exists_process_of_pid {i : InstanceId} {pid : Nat} (h : p.pid? i = some pid) :
    ∃ process, p.process? i = some process := by
  obtain ⟨s, hs, hprocess⟩ := Option.bind_eq_some_iff.mp h
  obtain ⟨⟨n, process⟩, hsome, -⟩ := Option.map_eq_some_iff.mp hprocess
  exact ⟨process, by simp [process?, hs, hsome]⟩

end Invariant

/-! ## Runs before the shutdown -/

section Runs

variable {plan : Plan} {now : Time} {p : Proxy}

/-- **The instance that serves is unharmed**: in every run before the shutdown, the number that is
reported is that of the instance that took over last, which nobody has killed; the interface calls
the application healthy only if there is such an instance; and whoever is started is told to take
over from it. -/
theorem serving_instance_is_unharmed (h : machine.Reach (· ≠ .shutdown) { plan } now p) :
    (∀ pid, p.servingPid = some pid → ∃ i process, p.current = some i ∧ p.pid? i = some pid ∧
      p.process? i = some process ∧ process.Unharmed) ∧
    (∀ v : Api.View, v.proxy = p.status → (Api.health v).status = 200 →
      ∃ i process, p.current = some i ∧ p.process? i = some process ∧ process.Unharmed) ∧
    ∀ a q s, p.step now a = some q → q.starts = p.starts ++ [s] → s.previous = p.current := by
  have hserving : ∀ pid, p.servingPid = some pid → ∃ i process, p.current = some i ∧
      p.pid? i = some pid ∧ p.process? i = some process ∧ process.Unharmed := by
    intro pid hpid
    obtain ⟨i, hcurrent, hi⟩ := Option.bind_eq_some_iff.mp hpid
    obtain ⟨process, there⟩ := exists_process_of_pid hi
    have hunasked : process.calls = [] := (Handoffs.of_reach h).serving i process there hcurrent
    exact ⟨i, process, hcurrent, hi, there, Spared.of_reach h i process there hunasked⟩
  refine ⟨hserving, fun v hv healthy => ?_, fun a q s hs hstarts => ?_⟩
  · cases hpid : p.servingPid with
    | some pid =>
      obtain ⟨i, process, hcurrent, -, hprocess⟩ := hserving pid hpid
      exact ⟨i, process, hcurrent, hprocess⟩
    | none =>
      -- Without a number there is no health.
      have hnone : v.proxy.pid = none := by rw [hv]; exact hpid
      unfold Api.health at healthy
      rw [hnone] at healthy
      split at healthy <;> cases healthy
  · rcases (transition_of_step hs).starts_eq with starts | ⟨i, old, b, new, -, -, starts⟩ |
      ⟨s', -, -, hbegins, starts, -⟩
    · rw [starts] at hstarts
      simp at hstarts
    · have hlength := congrArg List.length (starts.symm.trans hstarts)
      simp [setProcess] at hlength
    · rw [starts] at hstarts
      obtain rfl : s' = s := by simpa using hstarts
      exact hbegins.previous

/-- The first instance has taken over, and its program ends by itself. -/
def ending : List Action := [
  .prepare none, .write none, .rename none, .spawn 7 0, .judge,
  .process 0 (.finish (some (.code 0))), .process 0 .reap]

/-- The next instance is started. -/
def succession : List Action := [.reloadNow, .receive, .write none, .rename none, .spawn 8 0]

def ended : Proxy := (machine.play 0 ending { plan := briefPlan }).getD { plan := briefPlan }

def succeeded : Proxy := (machine.play 0 succession ended).getD ended

theorem play_ending : machine.play 0 ending { plan := briefPlan } = some ended := rfl

theorem reach_ended : machine.Reach (· ≠ .shutdown) { plan := briefPlan } 0 ended :=
  .of_play (by simp [ending]) play_ending

/-- The program of the first instance is reaped. Still its number is reported, the interface calls
the application healthy, and the next start is told to take over from it. -/
theorem serving_pid_outlives_program :
    machine.Reach (· ≠ .shutdown) { plan := briefPlan } 0 ended ∧ ended.servingPid = some 7 ∧
      ended.pid? 0 = some 7 ∧ (∃ process, ended.process? 0 = some process ∧
        process.reaped? = some (.exited (.code 0))) ∧
      (Api.health ⟨false, ended.status, 1, {}, []⟩).status = 200 ∧
      machine.play 0 succession ended = some succeeded ∧
      succeeded.starts.map (·.previous) = [none, some 0] :=
  ⟨reach_ended, rfl, rfl, ⟨_, rfl, rfl⟩, rfl, rfl, rfl⟩

/-- What holds of the number that is reported after the program has ended. -/
theorem serving_instance_is_unharmed_when_ended :
    ∃ process, ended.process? 0 = some process ∧ process.Unharmed := by
  obtain ⟨i, process, hcurrent, -, there, hunharmed⟩ :=
    (serving_instance_is_unharmed reach_ended).1 7 rfl
  cases hcurrent
  exact ⟨process, there, hunharmed⟩

end Runs

end Proxy

end OnionPool
