import OnionPool.Proofs.Handoffs
import OnionPool.Proofs.Quietness
import OnionPool.Proofs.Runs

/-!
# Handoffs keep connections and lose no instance

A superseded instance may finish its connections for the grace period; then it is terminated.

## Structure

- `Handoffs.tick` says that the invariant is kept when the clock moves on: no retirement is late.
- `Handoffs.kill` reads from the invariant when an instance is killed.
- `handoffs_keep_connections` puts both together, over all runs before the shutdown.
-/

namespace OnionPool.Proxy

/-! ## The clock -/

section Clock

variable {plan : Plan} {folder : Option Folder} {now : Time} {p : Proxy} {i : InstanceId}

/-- A retirement is found by its instance. -/
theorem Handoffs.grace?_eq_some (h : Handoffs plan now p) {g : Grace} (hg : g ∈ p.graces) :
    p.grace? g.retired = some g := by
  cases hfound : p.grace? g.retired with
  | none =>
    have hnot := List.find?_eq_none.mp hfound g hg
    simp at hnot
  | some g' =>
    obtain ⟨hg', hsame⟩ := mem_of_grace? hfound
    rw [h.grace_unique hg' hg hsame]

/-- When the clock moves on, no retirement is late: it has asked for the termination of its
instance, and that is reaped. -/
theorem Handoffs.tick (h : Handoffs plan now p) (quiet : machine.Quiet now p) :
    Handoffs plan (now + 1) p := by
  refine { h with
    terminating := ?terminating
    punctual := ?punctual }
  case terminating =>
    intro g hg hstage process there
    exact (h.terminating g hg hstage process there).imp_right (·.imp_left Nat.le_succ_of_le)
  case punctual =>
    intro g hg hlate
    obtain ⟨process, there⟩ := Option.isSome_iff_exists.mp (h.manned _ (h.mem_roster_of_grace hg))
    refine ⟨process, there, ?_⟩
    have hdue : g.since + plan.timings.grace ≤ now := Nat.le_of_lt_succ hlate
    cases hstage : g.stage with
    | waiting =>
      -- The retirement could go on, so the clock would stand still.
      have hstep : p.endGrace now g.retired = none := quiet (.endGrace g.retired) rfl
      rw [← h.samePlan] at hdue
      simp [Proxy.endGrace, h.grace?_eq_some hg, there, terminate, hstage, hdue] at hstep
    | terminating call =>
      have hasked := (h.terminating g hg (by simp [hstage]) process there).1
      exact (h.sound _ process there).reaped_of_quiet (fun a ha => quiet_process quiet there ha)
        (.inr hasked)

/-- The invariant holds in every run before the shutdown, whatever is in the directory at first. -/
theorem Handoffs.of_reach (h : machine.Reach (· ≠ .shutdown) { plan, folder } now p) :
    Handoffs plan now p := by
  induction h with
  | start =>
    have hnone : ∀ (i : InstanceId) (r : Process),
        ({ plan, folder } : Proxy).process? i ≠ some r := by
      simp [process?]
    constructor
    case samePlan | closings | retiring => rfl
    case opening => exact fun _ => rfl
    case distinct => exact .nil
    case sound | accounted | unasked | serving => exact fun i r hr => absurd hr (hnone i r)
    all_goals
      intro g hg
      cases hg
  | act hreach ha hs ih =>
    exact ih.step (fun _ settles => previous?_of_settling hreach settles) ha hs
  | tick _ hq ih => exact ih.tick hq

/-- Whoever is killed was superseded, and its grace is over. -/
theorem Handoffs.kill (h : Handoffs plan now p) {process process' : Process} {b : Process.Action}
    (there : p.process? i = some process) (step : process.step (p.holds i) now b = some process')
    (before : process.isKilling = false) (after : process'.isKilling = true) :
    p.current ≠ some i ∧ (∃ e ∈ p.events, e.Supersedes i) ∧
      ∀ e ∈ p.events, e.Supersedes i → e.finishedAt + plan.timings.grace ≤ now := by
  have hsound := h.sound i process there
  obtain ⟨hphase, hunwanted⟩ :=
    hsound.unwanted_of_kill (Process.transition_of_step step) before after
  have hnotReaped : process.reaped?.isSome ≠ true := by simp [Process.reaped?, hphase]
  -- Whoever is alive is on the roster, and so its process is held.
  have hroster : i ∈ p.roster := (h.accounted i process there).resolve_right hnotReaped
  -- Its process is held, so somebody has asked for its termination.
  have hasked : process.calls ≠ [] := by
    refine hunwanted.resolve_right fun hunheld => ?_
    rw [holds_of_mem_roster hroster] at hunheld
    cases hunheld
  have hcurrent : p.current ≠ some i := fun hc => hasked (h.serving i process there hc)
  have hretiring : i ∈ p.retiring := by
    rcases mem_roster.mp hroster with hretiring | hcurrent' | hsettling
    · exact hretiring
    · exact absurd hcurrent' hcurrent
    · exact absurd (h.unasked i process there hsettling) hasked
  obtain ⟨g, hg, rfl⟩ := List.mem_map.mp (h.retiring ▸ hretiring)
  -- Its retirement has asked for it, hence the grace is over.
  have hstage : g.stage ≠ .waiting := fun hw => hasked (h.waiting g hg hw process there)
  have hdue : g.since + plan.timings.grace ≤ now := by
    refine (h.terminating g hg hstage process there).2.resolve_right fun hexited => ?_
    exact hnotReaped (Process.reaped_of_exited hexited)
  obtain ⟨e, he, hsupersedes, -⟩ := h.begun g hg
  refine ⟨hcurrent, ⟨e, he, hsupersedes⟩, fun e' he' hsupersedes' => ?_⟩
  rcases h.superseded e' he' _ hsupersedes' with ⟨g', hg', hsame, hsince⟩ | ⟨r, hr, hreaped⟩
  · rw [← hsince, h.grace_unique hg' hg hsame]
    exact hdue
  · cases there.symm.trans hr
    exact absurd hreaped hnotReaped

end Clock

/-! ## Runs before the shutdown -/

section Runs

variable {plan : Plan} {now : Time} {p : Proxy}

/-- **Handoffs keep connections and lose no instance**, as long as there is no shutdown: an instance
is killed only when it was superseded, and not before the grace period after that; an instance whose
settle window is over is current, retires or is reaped, from then on; and an instance that was
superseded is reaped when the clock has passed the grace period. Where a system resists, whoever
cannot be killed is given up as if it were reaped. -/
theorem handoffs_keep_connections (h : machine.Reach (· ≠ .shutdown) { plan } now p) :
    (∀ a q i process process', p.step now a = some q → p.process? i = some process →
      q.process? i = some process' → process.isKilling = false → process'.isKilling = true →
      p.current ≠ some i ∧ (∃ e ∈ p.events, e.Supersedes i) ∧
        ∀ e ∈ p.events, e.Supersedes i → e.finishedAt + plan.timings.grace ≤ now) ∧
    (∀ i process, p.process? i = some process → p.loop.isSettling i = false →
      ∀ later q, machine.Run (· ≠ .shutdown) now p later q → ∃ process',
        q.process? i = some process' ∧
          (q.current = some i ∨ i ∈ q.retiring ∨ process'.reaped?.isSome = true)) ∧
    (∀ e ∈ p.events, ∀ i, e.Supersedes i → e.finishedAt + plan.timings.grace < now →
      ∃ process, p.process? i = some process ∧ process.reaped?.isSome = true) := by
  have hp := Handoffs.of_reach h
  refine ⟨fun a q i process process' hs there there' before after => ?_,
    fun i process there settled later q r => ?_, fun e he i hsupersedes hlate => ?_⟩
  -- A step of the proxy is at most one step of this process.
  · obtain ⟨r, hr, hstep⟩ := (transition_of_step hs).process_step there
    cases there'.symm.trans hr
    rcases hstep with rfl | ⟨b, hstep⟩
    · rw [before] at after
      cases after
    · exact hp.kill there hstep before after
  · have hsettled : p.loop.settling? ≠ some i := fun hsettling => by
      rw [isSettling_iff.mpr hsettling] at settled
      cases settled
    -- From here on the instance is there, and does not settle again.
    obtain ⟨⟨process', there'⟩, hq⟩ := r.induct
      (P := fun _ (s : Proxy) => (∃ r, s.process? i = some r) ∧ s.loop.settling? ≠ some i)
      ⟨⟨process, there⟩, hsettled⟩ (fun {now s s' a} ih _ hs => by
        obtain ⟨⟨r, hr⟩, hsettled⟩ := ih
        have ht := transition_of_step hs
        obtain ⟨r', hr', -⟩ := ht.process_step hr
        exact ⟨⟨r', hr'⟩, ht.settled hr hsettled⟩) fun ih _ => ih
    refine ⟨process', there', ?_⟩
    rcases (Handoffs.of_reach (h.append r)).accounted i process' there' with hroster | hreaped
    · rcases mem_roster.mp hroster with hretiring | hcurrent | hsettling
      · exact .inr (.inl hretiring)
      · exact .inl hcurrent
      · exact absurd hsettling hq
    · exact .inr (.inr hreaped)
  · rcases hp.superseded e he i hsupersedes with ⟨g, hg, rfl, hsince⟩ | hreaped
    · exact hp.punctual g hg (hsince ▸ hlate)
    · exact hreaped

/-- A proxy whose bursts end at once, with a short grace period. -/
def briefPlan : Plan := ⟨⟨8080, none, 256, .roundRobin⟩, ⟨0, 100, 1⟩, "haproxy"⟩

/-- The first instance is replaced by a second one. -/
def replacement : List Action := [
  .prepare none, .write none, .rename none, .spawn 1 0, .judge,
  .reloadNow, .receive, .write none, .rename none, .spawn 2 0, .judge]

/-- The retirement of the first instance asks for its termination. -/
def dismissal : List Action := [.endGrace 0, .process 0 (.look 0), .process 0 (.send 0)]

/-- The first instance is killed and forgotten. -/
def departure : List Action := [
  .process 0 .take, .process 0 .collect, .process 0 .drain, .process 0 .publish,
  .process 0 (.leave 0), .forget 0]

def replaced : Proxy :=
  (machine.play 0 replacement { plan := briefPlan }).getD { plan := briefPlan }

def dismissed : Proxy := (machine.play 1 dismissal replaced).getD replaced

def departed : Proxy := (machine.play 1 departure dismissed).getD replaced

theorem quiet_replaced : machine.Quiet 0 replaced := by
  refine quiet_of_resting ⟨.inl rfl, rfl, rfl, fun g hg => ?_, rfl, fun i process there a ha => ?_⟩
  · rw [List.mem_singleton.mp hg]
    refine ⟨rfl, by decide, fun process there => ?_⟩
    cases there
    rfl
  · match i with
    | 0 => cases there; exact Process.quiet_of_unasked rfl rfl rfl rfl ha
    | 1 => cases there; exact Process.quiet_of_unasked rfl rfl rfl rfl ha
    | i + 2 => cases there

theorem quiet_departed : machine.Quiet 1 departed := by
  refine quiet_of_resting ⟨.inl rfl, rfl, rfl, fun g hg => ?_, rfl, fun i process there a ha => ?_⟩
  · cases hg
  · match i with
    | 0 => cases there; exact Process.quiet_of_over rfl rfl ha
    | 1 => cases there; exact Process.quiet_of_unasked rfl rfl rfl rfl ha
    | i + 2 => cases there

/-- The first instance is killed one millisecond after it was replaced, and reaped when one more has
passed. -/
theorem handoffs_keep_connections_in_replacement :
    machine.play 0 replacement { plan := briefPlan } = some replaced ∧
      machine.play 1 dismissal replaced = some dismissed ∧
      machine.play 1 departure dismissed = some departed ∧
      (dismissed.current ≠ some 0 ∧
        ∀ e ∈ dismissed.events, e.Supersedes 0 → e.finishedAt + 1 ≤ 1) ∧
      ∃ process, departed.process? 0 = some process ∧ process.reaped?.isSome = true := by
  have hreplace : machine.play 0 replacement { plan := briefPlan } = some replaced := by rfl
  have hdismiss : machine.play 1 dismissal replaced = some dismissed := by rfl
  have hdepart : machine.play 1 departure dismissed = some departed := by rfl
  have hreplaced : machine.Reach (· ≠ .shutdown) { plan := briefPlan } 0 replaced :=
    .of_play (by simp [replacement]) hreplace
  have hdismissed : machine.Reach (· ≠ .shutdown) { plan := briefPlan } 1 dismissed :=
    (hreplaced.tick quiet_replaced).append (.play .refl (by simp [dismissal]) hdismiss)
  have hdeparted : machine.Reach (· ≠ .shutdown) { plan := briefPlan } 2 departed :=
    (hdismissed.append (.play .refl (by simp [departure]) hdepart)).tick quiet_departed
  obtain ⟨hcurrent, -, hgrace⟩ := (handoffs_keep_connections hdismissed).1 (.process 0 .take) _ 0
    _ _ rfl rfl rfl rfl rfl
  obtain ⟨e, he, hsupersedes⟩ : ∃ e ∈ departed.events, e.Supersedes 0 ∧ e.finishedAt = 0 :=
    ⟨_, List.mem_cons_self .., ⟨rfl, rfl⟩, rfl⟩
  have hreaped := (handoffs_keep_connections hdeparted).2.2 e he 0 hsupersedes.1
    (by rw [hsupersedes.2]; decide)
  exact ⟨hreplace, hdismiss, hdepart, ⟨hcurrent, hgrace⟩, hreaped⟩

end Runs

end OnionPool.Proxy
