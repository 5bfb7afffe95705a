import OnionPool.Proofs.ProxyShutdown
import OnionPool.Proofs.Quietness

/-!
# The shutdown goes on

The first call of the shutdown waits for the job under way, and each call for one instance after the
other. Neither can hold it up for ever: it waits for a settle window or for a drain grace, and at
any other moment something happens of itself.

## Structure

- `Pressed` is the invariant: the loop was told to stop, and whoever is waited for is there.
- `waits_of_working` says what a job waits for.
- `Waits` lists what a call of the shutdown waits for, and `shutdown_goes_on` says that there is
  nothing else.
-/

namespace OnionPool.Proxy

/-! ## The invariant -/

/-- The shutdown has told the loop to stop, and none of its calls waits for somebody who is not
there. -/
structure Pressed (p : Proxy) : Prop where
  stop : p.closings = [] ∨ p.stop = true
  calling : ∀ (c : ClosingId) rest i call,
    p.closings[c]? = some (.terminating rest (some (i, call))) →
    ∃ process, p.process? i = some process ∧ call < process.calls.length

section Invariant

variable {now : Time} {p q : Proxy} {a : Action} {i : InstanceId} {process : Process}

/-- A caller is not forgotten. -/
theorem Transition.length_calls (t : Transition now p a q) (there : p.process? i = some process) :
    ∃ process', q.process? i = some process' ∧ process.calls.length ≤ process'.calls.length := by
  obtain ⟨process', there', hstep⟩ := t.process_step there
  refine ⟨process', there', ?_⟩
  rcases hstep with rfl | ⟨b, hstep⟩
  · exact Nat.le_refl _
  · by_cases hb : b = .terminate
    · subst hb
      cases hstep
      simp [Process.terminate]
    · exact Nat.le_of_eq ((Process.transition_of_step hstep).length_calls hb).symm

/-- A loop that was told to stop is not told to go on. -/
theorem Transition.stop_of_stop (t : Transition now p a q) (stop : p.stop = true) :
    q.stop = true := by
  by_cases ha : a = .shutdown
  · subst ha
    cases t
    rfl
  · exact (t.stop_eq ha).trans stop

/-- Once a shutdown was called, the loop is told to stop. -/
theorem Pressed.stop_step (h : Pressed p) (t : Transition now p a q) :
    q.closings = [] ∨ q.stop = true := by
  rcases h.stop with hnil | hstop
  · by_cases ha : a = .shutdown
    · subst ha
      cases t
      exact .inr rfl
    · exact .inl (t.closings_of_nil ha hnil)
  · exact .inr (t.stop_of_stop hstop)

/-- What a call of the shutdown has come to after a step, it had come to before, unless it is the
one that goes on. -/
theorem getElem?_set_cases {closings : List Closing} {c c' : ClosingId} {stage after : Closing}
    (h : (closings.set c after)[c']? = some stage) :
    stage = after ∨ closings[c']? = some stage := by
  by_cases hc : c = c'
  · subst hc
    have hlt := (List.getElem?_eq_some_iff.mp h).1
    rw [List.getElem?_set_self (by simpa using hlt)] at h
    exact .inl (Option.some.inj h).symm
  · rw [List.getElem?_set_ne hc] at h
    exact .inr h

/-- The calls to terminate that a shutdown waits for are there. -/
theorem Pressed.calling_step (h : Pressed p) (t : Transition now p a q) :
    ∀ (c : ClosingId) rest i call, q.closings[c]? = some (.terminating rest (some (i, call))) →
      ∃ process, q.process? i = some process ∧ call < process.calls.length := by
  intro c rest i call hclosing
  -- A call that waited before waits for the same caller, who is not forgotten.
  have hold : p.closings[c]? = some (.terminating rest (some (i, call))) →
      ∃ process, q.process? i = some process ∧ call < process.calls.length := by
    intro hbefore
    obtain ⟨process, there, hcall⟩ := h.calling c rest i call hbefore
    obtain ⟨process', there', hlength⟩ := t.length_calls there
    exact ⟨process', there', Nat.lt_of_lt_of_le hcall hlength⟩
  have hsame : q.closings = p.closings →
      ∃ process, q.process? i = some process ∧ call < process.calls.length :=
    fun closings => hold (closings ▸ hclosing)
  have hkeeps : a.KeepsPlaces →
      ∃ process, q.process? i = some process ∧ call < process.calls.length :=
    fun ha => hsame (t.samePlaces ha).closings
  cases t with
  | succeed => exact hsame (by rw [conclude_eq, takeOver_eq])
  | failEarly => exact hsame (by rw [conclude_eq])
  | forget => exact hsame rfl
  | shutdown =>
    -- The call that was only just made waits for nobody.
    change (p.closings ++ [Closing.joining])[c]? = _ at hclosing
    rw [List.getElem?_append] at hclosing
    split at hclosing
    · exact hold hclosing
    · cases List.mem_singleton.mp (List.mem_of_getElem? hclosing)
  | join | skipNext | killed | clear | forgo =>
    rcases getElem?_set_cases hclosing with hnew | hbefore
    · cases hnew
    · exact hold hbefore
  | killNext c' j rest' process closing there =>
    rcases getElem?_set_cases hclosing with hnew | hbefore
    · -- The new caller is the last one.
      cases hnew
      refine ⟨_, process?_setProcess_self there _, ?_⟩
      simp [Process.terminate, Process.nextCall]
    · exact hold hbefore
  | _ => exact hkeeps trivial

/-- The invariant holds in every run. -/
theorem Pressed.of_reach {allowed : Action → Prop} {plan : Plan} {folder : Option Folder}
    (h : machine.Reach allowed { plan, folder } now p) : Pressed p := by
  induction h with
  | start => exact ⟨.inl rfl, nofun⟩
  | act _ _ hs ih =>
    have ht := transition_of_step hs
    exact ⟨ih.stop_step ht, ih.calling_step ht⟩
  | tick _ _ ih => exact ih

end Invariant

/-! ## What a shutdown waits for -/

/-- The settle window of an instance is not over. -/
inductive Settles (now : Time) (p : Proxy) : Prop
  | intro (job : Job) (i : InstanceId) (due : Time) (process : Process)
      (loop : p.loop = .working job (.settling i due)) (there : p.process? i = some process)
      (alive : process.reaped? = none) (early : now < due)

/-- What a call of the shutdown waits for. -/
inductive Waits (now : Time) (p : Proxy) (c : ClosingId) : Prop
  /-- The first call waits for the loop, and that for the end of a settle window. -/
  | settling (first : c = 0) (closing : p.closings[c]? = some .joining) (settles : Settles now p)
  /-- An instance was reaped, its output is open, and its drain grace is not over. -/
  | draining (rest : List InstanceId) (i : InstanceId) (call : CallId) (process : Process)
      (outcome : Outcome) (since : Time)
      (closing : p.closings[c]? = some (.terminating rest (some (i, call))))
      (there : p.process? i = some process)
      (phase : process.phase = .draining outcome since) (unread : process.drainedAt = none)
      (early : now < since + Process.drainGrace)

section Waiting

variable {now : Time} {p : Proxy}

/-- A job waits for nothing but a settle window. -/
theorem waits_of_working (h : Succession p) {job : Job} {stage : Stage}
    (loop : p.loop = .working job stage) (quiet : machine.Quiet now p) : Settles now p := by
  -- In every other stage the loop has a step to take, so the proxy would not be quiet.
  cases stage with
  | preparing =>
    have hprepare : p.prepare now none = none := quiet (.prepare none) rfl
    simp [Proxy.prepare, loop] at hprepare
  | writing =>
    have hwrite : p.write now none = none := quiet (.write none) rfl
    cases hfolder : p.folder <;> simp [Proxy.write, loop, hfolder] at hwrite
  | «renaming» =>
    have hrename : p.rename now none = none := quiet (.rename none) rfl
    cases htext : p.folder.bind (·.temporary) <;> simp [Proxy.rename, loop, htext] at hrename
  | starting =>
    have hrefuse : p.refuse now (.os .notFound) = none := quiet (.refuse (.os .notFound)) rfl
    simp [Proxy.refuse, loop] at hrefuse
  | settling i due =>
    obtain ⟨process, there⟩ :=
      Option.isSome_iff_exists.mp (h.spawned i (by rw [loop]; rfl))
    have hjudge : p.judge now = none := quiet .judge rfl
    have hverdict : process.verdict? now due = none := by
      cases hverdict : process.verdict? now due with
      | none => rfl
      | some verdict => cases verdict <;> simp [Proxy.judge, loop, there, hverdict] at hjudge
    unfold Process.verdict? at hverdict
    split at hverdict
    next => cases hverdict
    next halive =>
      split at hverdict
      next => cases hverdict
      next hearly => exact .intro job i due process loop there halive (Nat.not_le.mp hearly)

/-- **The shutdown goes on**: whatever has happened and whoever settles, retires or stands in line,
when nothing happens of itself each call of the shutdown has returned, or it waits for a settle
window or for a drain grace that is not over. -/
theorem shutdown_goes_on {allowed : Action → Prop} {plan : Plan} {folder : Option Folder}
    (h : machine.Reach allowed { plan, folder } now p) (quiet : machine.Quiet now p)
    {c : ClosingId} {stage : Closing} (there : p.closings[c]? = some stage) :
    stage = .closed ∨ Waits now p c := by
  have hpressed := Pressed.of_reach h
  have hsound := (Custody.of_reach h).sound
  cases stage with
  | closed => exact .inl rfl
  | joining =>
    have hjoin : p.join c = none := quiet (.join c) rfl
    have hwaits : p.awaitsLoop c = true := by simpa [Proxy.join, there] using hjoin
    simp only [awaitsLoop, Bool.and_eq_true, decide_eq_true_eq, Bool.not_eq_true'] at hwaits
    -- The loop was told to stop, so it ends unless a job is under way.
    have hstop : p.stop = true := by
      refine hpressed.stop.resolve_left fun hnil => ?_
      rw [hnil] at there
      cases there
    have hhalt : p.halt = none := quiet .halt rfl
    refine .inr (.settling hwaits.1 there ?_)
    cases hloop : p.loop with
    | working job stage => exact waits_of_working (.of_reach h) hloop quiet
    | idle | pending => simp [Proxy.halt, hloop, hstop] at hhalt
    | stopped | failed => simp [isStopped, hloop] at hwaits
  | terminating rest current =>
    cases current with
    | none =>
      -- Either somebody is left to be terminated, or the directory is removed.
      cases rest with
      | nil =>
        have hclear : p.clear c = none := quiet (.clear c) rfl
        simp [Proxy.clear, there] at hclear
      | cons i rest =>
        have hnext : p.killNext c = none := quiet (.killNext c) rfl
        cases hterminate : p.terminate i <;> simp [Proxy.killNext, there, hterminate] at hnext
    | some x =>
      obtain ⟨i, call⟩ := x
      obtain ⟨process, hprocess, hlt⟩ := hpressed.calling c rest i call there
      have hkilled : p.killed c = none := quiet (.killed c) rfl
      have hnotDone : process.calls[call] ≠ .returned := by
        intro hreturned
        simp [Proxy.killed, there, isTerminated, hprocess, Process.hasReturned, hlt,
          hreturned] at hkilled
      obtain ⟨outcome, since, phase, unread, early⟩ := (hsound i process hprocess).draining_of_quiet
        (fun a ha => quiet_process quiet hprocess ha) (List.getElem?_eq_getElem hlt) hnotDone
      exact .inr (.draining rest i call process outcome since there hprocess phase unread early)

end Waiting

end OnionPool.Proxy
