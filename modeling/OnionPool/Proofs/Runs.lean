import OnionPool.Machine

/-!
# Runs that go on

`Machine.Reach` starts at time zero. A run can also be looked at from any moment on: what came
before is then forgotten, and what holds at that moment and is kept holds ever after.

## Structure

- `Machine.Run` is a run from a moment and a state on; a run after a run is a run.
- `Machine.play` plays a list of actions at one instant, so that single runs can be computed.
- `Machine.Trace` is a run with all that has happened in it, `Machine.replay` does it again, or with
  something left out. `Trace.play` and `Trace.wait` put such a run together.
- `Machine.Occurred` says that a step of some kind was taken in a run, so that the order of steps
  can be told: whenever one is taken, another one has occurred.
- `Machine.moments` lists the times at which a run has changed something, and `Machine.chronicle`
  all that its steps tell; `Trace.of_mem_chronicle` goes back to the step that told something.
-/

namespace OnionPool.Machine

variable {State Action : Type}

/-! ## Runs from a moment on -/

/-- The moments and states that a machine can come to from a moment and a state on, if only actions
with a given property happen. -/
inductive Run (m : Machine State Action) (allowed : Action → Prop) (since : Time)
    (origin : State) : Time → State → Prop
  | refl : Run m allowed since origin since origin
  | act {now : Time} {s s' : State} {a : Action} :
      Run m allowed since origin now s → allowed a → m.step now s a = some s' →
      Run m allowed since origin now s'
  | tick {now : Time} {s : State} :
      Run m allowed since origin now s → m.Quiet now s → Run m allowed since origin (now + 1) s

/-- What holds at a moment and is kept by every action and every tick holds from then on. -/
theorem Run.induct {m : Machine State Action} {allowed : Action → Prop} {since : Time}
    {origin : State} {P : Time → State → Prop} (start : P since origin)
    (act : ∀ {now s s' a}, P now s → allowed a → m.step now s a = some s' → P now s')
    (tick : ∀ {now s}, P now s → m.Quiet now s → P (now + 1) s)
    {now : Time} {s : State} (h : Run m allowed since origin now s) : P now s := by
  induction h with
  | refl => exact start
  | act _ ha hs ih => exact act ih ha hs
  | tick _ hq ih => exact tick ih hq

/-- What is run to with fewer actions is run to with more. -/
theorem Run.mono {m : Machine State Action} {allowed allowed' : Action → Prop} {since now : Time}
    {origin s : State} (h : ∀ a, allowed a → allowed' a) (r : m.Run allowed since origin now s) :
    m.Run allowed' since origin now s :=
  r.induct .refl (fun ih ha hs => .act ih (h _ ha) hs) fun ih hq => .tick ih hq

/-- What is reached from a reached state is reached. -/
theorem Reach.append {m : Machine State Action} {allowed : Action → Prop} {initial s s' : State}
    {now now' : Time} (h : m.Reach allowed initial now s) (r : m.Run allowed now s now' s') :
    m.Reach allowed initial now' s' :=
  r.induct h (fun ih ha hs => .act ih ha hs) fun ih hq => .tick ih hq

/-- What is reached is run to from the start. -/
theorem Reach.run {m : Machine State Action} {allowed : Action → Prop} {initial s : State}
    {now : Time} (h : m.Reach allowed initial now s) : m.Run allowed 0 initial now s :=
  h.induct .refl (fun ih ha hs => .act ih ha hs) fun ih hq => .tick ih hq

/-! ## Playing actions -/

/-- Some actions one after the other at one instant, if all of them can happen. -/
def play (m : Machine State Action) (now : Time) : List Action → State → Option State
  | [], s => some s
  | a :: rest, s => (m.step now s a).bind (play m now rest)

/-- What is played from a moment on is a run. -/
theorem Run.play {m : Machine State Action} {allowed : Action → Prop} {since now : Time}
    {origin s s' : State} {actions : List Action} (r : m.Run allowed since origin now s)
    (ha : ∀ a ∈ actions, allowed a) (h : m.play now actions s = some s') :
    m.Run allowed since origin now s' := by
  -- The state varies: after the first action the rest is played from another one.
  induction actions generalizing s with
  | nil => cases h; exact r
  | cons a rest ih =>
    obtain ⟨t, hstep, hrest⟩ := Option.bind_eq_some_iff.mp h
    have hfirst : m.Run allowed since origin now t := .act r (ha a (List.mem_cons_self ..)) hstep
    exact ih hfirst (fun b hb => ha b (List.mem_cons_of_mem _ hb)) hrest

/-! ## Runs that are remembered -/

/-- A run from a moment and a state on, with all that has happened in it and when. -/
inductive Trace (m : Machine State Action) (allowed : Action → Prop) (since : Time)
    (origin : State) : List (Time × Action) → Time → State → Prop
  | refl : Trace m allowed since origin [] since origin
  | act {done : List (Time × Action)} {now : Time} {s s' : State} {a : Action} :
      Trace m allowed since origin done now s → allowed a → m.step now s a = some s' →
      Trace m allowed since origin (done ++ [(now, a)]) now s'
  | tick {done : List (Time × Action)} {now : Time} {s : State} :
      Trace m allowed since origin done now s → m.Quiet now s →
      Trace m allowed since origin done (now + 1) s

/-- Some actions one after the other, each at its time, if all of them can happen. -/
def replay (m : Machine State Action) : List (Time × Action) → State → Option State
  | [], s => some s
  | (now, a) :: rest, s => (m.step now s a).bind (replay m rest)

/-- Two histories are replayed one after the other. -/
theorem replay_append (m : Machine State Action) (first second : List (Time × Action))
    (s : State) : m.replay (first ++ second) s = (m.replay first s).bind (m.replay second) := by
  induction first generalizing s with
  | nil => rfl
  | cons x rest ih =>
    obtain ⟨now, a⟩ := x
    show (m.step now s a).bind (m.replay (rest ++ second)) = _
    rw [funext ih]
    exact (Option.bind_assoc ..).symm

/-- One more action at the end of a replay. -/
theorem replay_snoc {m : Machine State Action} {done : List (Time × Action)} {now : Time}
    {s s' s'' : State} {a : Action} (h : m.replay done s = some s')
    (hs : m.step now s' a = some s'') : m.replay (done ++ [(now, a)]) s = some s'' := by
  rw [replay_append, h]
  simp [replay, hs]

/-- A run can be replayed. -/
theorem Trace.replay {m : Machine State Action} {allowed : Action → Prop} {since now : Time}
    {origin s : State} {done : List (Time × Action)} (h : m.Trace allowed since origin done now s) :
    m.replay done origin = some s := by
  induction h with
  | refl => rfl
  | act _ _ hs ih => exact replay_snoc ih hs
  | tick _ _ ih => exact ih

/-- A run that is remembered is a run. -/
theorem Trace.run {m : Machine State Action} {allowed : Action → Prop} {since now : Time}
    {origin s : State} {done : List (Time × Action)} (h : m.Trace allowed since origin done now s) :
    m.Run allowed since origin now s := by
  induction h with
  | refl => exact .refl
  | act _ ha hs ih => exact .act ih ha hs
  | tick _ hq ih => exact .tick ih hq

/-- A run in which only certain actions have happened is one that admits no others. -/
theorem Trace.restrict {m : Machine State Action} {allowed allowed' : Action → Prop}
    {since now : Time} {origin s : State} {done : List (Time × Action)}
    (r : m.Trace allowed since origin done now s) (h : ∀ x ∈ done, allowed' x.2) :
    m.Trace allowed' since origin done now s := by
  induction r with
  | refl => exact .refl
  | act _ _ hs ih =>
    obtain ⟨hearlier, hlast⟩ := List.forall_mem_append.mp h
    exact .act (ih hearlier) (hlast _ (List.mem_singleton_self _)) hs
  | tick _ hq ih => exact .tick (ih h) hq

/-- What is played at an instant is remembered. -/
theorem Trace.play {m : Machine State Action} {allowed : Action → Prop} {since now : Time}
    {origin s s' : State} {done : List (Time × Action)} {actions : List Action}
    (r : m.Trace allowed since origin done now s) (ha : ∀ a ∈ actions, allowed a)
    (h : m.play now actions s = some s') :
    m.Trace allowed since origin (done ++ actions.map (now, ·)) now s' := by
  induction actions generalizing s done with
  | nil =>
    cases h
    simpa using r
  | cons a rest ih =>
    obtain ⟨t, hstep, hrest⟩ := Option.bind_eq_some_iff.mp h
    have hfirst : m.Trace allowed since origin (done ++ [(now, a)]) now t :=
      .act r (ha a (List.mem_cons_self ..)) hstep
    have hall := ih hfirst (fun b hb => ha b (List.mem_cons_of_mem _ hb)) hrest
    simpa using hall

/-- While a state is quiet, time passes. -/
theorem Trace.wait {m : Machine State Action} {allowed : Action → Prop} {since now later : Time}
    {origin s : State} {done : List (Time × Action)} (r : m.Trace allowed since origin done now s)
    (le : now ≤ later) (quiet : ∀ time < later, m.Quiet time s) :
    m.Trace allowed since origin done later s := by
  induction le with
  | refl => exact r
  | step _ ih =>
    refine .tick (ih fun time hlt => ?_) (quiet _ (Nat.lt_succ_self _))
    exact quiet time (Nat.lt_succ_of_lt hlt)

/-- What is played at the start is reached. -/
theorem Reach.of_play {m : Machine State Action} {allowed : Action → Prop} {initial s : State}
    {actions : List Action} (ha : ∀ a ∈ actions, allowed a)
    (h : m.play 0 actions initial = some s) : m.Reach allowed initial 0 s :=
  Reach.append .start (.play .refl ha h)

/-! ## What has occurred -/

/-- Among what has happened since `origin` there is a step of some kind. -/
def Occurred (m : Machine State Action) (kind : State → Action → State → Prop) (origin : State)
    (done : List (Time × Action)) : Prop :=
  ∃ earlier now a later s s', done = earlier ++ (now, a) :: later ∧
    m.replay earlier origin = some s ∧ m.step now s a = some s' ∧ kind s a s'

section Occurrences

variable {m : Machine State Action} {kind : State → Action → State → Prop} {origin s s' : State}
  {done : List (Time × Action)} {now : Time} {a : Action}

theorem not_occurred_nil : ¬ m.Occurred kind origin [] := by
  rintro ⟨earlier, now, a, later, s, s', hdone, -⟩
  simp at hdone

/-- What has occurred has occurred for good. -/
theorem Occurred.append (h : m.Occurred kind origin done) (more : List (Time × Action)) :
    m.Occurred kind origin (done ++ more) := by
  obtain ⟨earlier, now, a, later, s, s', rfl, hreplay, hstep, hkind⟩ := h
  refine ⟨earlier, now, a, later ++ more, s, s', ?_, hreplay, hstep, hkind⟩
  rw [List.append_assoc, List.cons_append]

/-- The step that is taken last occurs. -/
theorem Occurred.last (h : m.replay done origin = some s) (hs : m.step now s a = some s')
    (hkind : kind s a s') : m.Occurred kind origin (done ++ [(now, a)]) :=
  ⟨done, now, a, [], s, s', rfl, h, hs, hkind⟩

/-- What has occurred has done so before the last step, or in it. -/
theorem Occurred.of_snoc (h : m.replay done origin = some s) (hs : m.step now s a = some s')
    (ho : m.Occurred kind origin (done ++ [(now, a)])) :
    m.Occurred kind origin done ∨ kind s a s' := by
  obtain ⟨earlier, time, b, later, t, t', hdone, hreplay, hstep, hkind⟩ := ho
  rcases List.eq_nil_or_concat later with rfl | ⟨before, x, rfl⟩
  · -- It was the last step itself.
    obtain ⟨rfl, hlast⟩ := List.append_inj' hdone rfl
    cases hlast
    cases h.symm.trans hreplay
    cases hs.symm.trans hstep
    exact .inr hkind
  · refine .inl ⟨earlier, time, b, before, t, t', ?_, hreplay, hstep, hkind⟩
    rw [List.concat_eq_append, ← List.cons_append, ← List.append_assoc] at hdone
    exact (List.append_inj' hdone rfl).1

/-- What occurs in a history occurs before the last step or at it. -/
theorem occurred_snoc (h : m.replay done origin = some s) (hs : m.step now s a = some s') :
    m.Occurred kind origin (done ++ [(now, a)]) ↔ m.Occurred kind origin done ∨ kind s a s' := by
  constructor
  · exact Occurred.of_snoc h hs
  · rintro (hbefore | hkind)
    · exact hbefore.append _
    · exact .last h hs hkind

end Occurrences

/-! ## When something has changed -/

/-- The times of those steps that change a state in some way, when a list of actions is replayed. -/
def moments (m : Machine State Action) (changes : State → State → Bool) :
    List (Time × Action) → State → List Time
  | [], _ => []
  | (now, a) :: rest, s =>
    match m.step now s a with
    | none => []
    | some s' => (if changes s s' then [now] else []) ++ moments m changes rest s'

/-- One more action at the end is one more moment, if it changes something. -/
theorem moments_snoc {m : Machine State Action} (changes : State → State → Bool)
    {done : List (Time × Action)} {now : Time} {s s' s'' : State} {a : Action}
    (h : m.replay done s = some s') (hs : m.step now s' a = some s'') :
    m.moments changes (done ++ [(now, a)]) s =
      m.moments changes done s ++ if changes s' s'' then [now] else [] := by
  induction done generalizing s with
  | nil =>
    cases h
    simp [moments, hs]
  | cons x rest ih =>
    obtain ⟨time, b⟩ := x
    obtain ⟨t, hstep, hrest⟩ := Option.bind_eq_some_iff.mp h
    rw [List.cons_append, moments, moments, hstep]
    dsimp only
    rw [ih hrest, List.append_assoc]

/-! ## What the steps tell -/

/-- What the steps tell, and when, when a list of actions is replayed. -/
def chronicle {Event : Type} (m : Machine State Action)
    (tells : State → Action → State → List Event) :
    List (Time × Action) → State → List (Time × Event)
  | [], _ => []
  | (now, a) :: rest, s =>
    match m.step now s a with
    | none => []
    | some s' => (tells s a s').map (now, ·) ++ chronicle m tells rest s'

/-- One more action at the end tells what its step tells. -/
theorem chronicle_snoc {Event : Type} {m : Machine State Action}
    (tells : State → Action → State → List Event) {done : List (Time × Action)} {now : Time}
    {s s' s'' : State} {a : Action} (h : m.replay done s = some s')
    (hs : m.step now s' a = some s'') :
    m.chronicle tells (done ++ [(now, a)]) s =
      m.chronicle tells done s ++ (tells s' a s'').map (now, ·) := by
  induction done generalizing s with
  | nil =>
    cases h
    simp [chronicle, hs]
  | cons x rest ih =>
    obtain ⟨time, b⟩ := x
    obtain ⟨t, hstep, hrest⟩ := Option.bind_eq_some_iff.mp h
    rw [List.cons_append, chronicle, chronicle, hstep]
    dsimp only
    rw [ih hrest, List.append_assoc]

/-- Whatever is told was told by a step, in a state that the run has come to. -/
theorem Trace.of_mem_chronicle {Event : Type} {m : Machine State Action}
    {tells : State → Action → State → List Event} {allowed : Action → Prop} {since now e : Time}
    {origin s : State} {done : List (Time × Action)} {x : Event}
    (run : m.Trace allowed since origin done now s)
    (told : (e, x) ∈ m.chronicle tells done origin) :
    ∃ before a t t', before ++ [(e, a)] <+: done ∧ m.Trace allowed since origin before e t ∧
      m.step e t a = some t' ∧ x ∈ tells t a t' := by
  induction run with
  | refl => cases told
  | tick _ _ ih => exact ih told
  | @act done now t t' a hbefore _ hs ih =>
    rw [chronicle_snoc tells hbefore.replay hs] at told
    rcases List.mem_append.mp told with hold | hnew
    · obtain ⟨before, b, u, u', hprefix, hrest⟩ := ih hold
      exact ⟨before, b, u, u', hprefix.trans (List.prefix_append ..), hrest⟩
    · obtain ⟨y, hy, hsame⟩ := List.mem_map.mp hnew
      cases hsame
      exact ⟨done, a, t, t', List.prefix_rfl, hbefore, hs, hy⟩

end OnionPool.Machine
