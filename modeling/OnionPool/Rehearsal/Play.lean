import OnionPool.Machine

/-!
# Playing a machine

A rehearsal plays a machine on a clock of its own. What the machine could do is tried in a fixed
order, and the surroundings play by a script. At every instant all that can happen happens before
the clock moves on.
-/

namespace OnionPool

/-- A machine with the actions that are to be tried in a state, in order. -/
structure Rehearsal (State Action : Type) where
  machine : Machine State Action
  turns : State → List Action

namespace Rehearsal

variable {State Action : Type}

/-- More actions than happen at one instant. -/
def instantLimit : Nat := 1000000

/-- The first action that can happen. -/
def next? (r : Rehearsal State Action) (now : Time) (s : State) : Option State :=
  (r.turns s).findSome? (r.machine.step now s)

/-- One action after the other, up to a number. -/
def settleWithin (r : Rehearsal State Action) (now : Time) : (limit : Nat) → State → State
  | 0, s => s
  | limit + 1, s =>
    match r.next? now s with
    | none => s
    | some s => settleWithin r now limit s

/-- All that can happen at an instant. -/
def settle (r : Rehearsal State Action) (now : Time) (s : State) : State :=
  r.settleWithin now instantLimit s

/-- An action from outside, if it can happen, and all that follows from it at once. -/
def act (r : Rehearsal State Action) (now : Time) (s : State) (a : Action) : State :=
  r.settle now ((r.machine.step now s a).getD s)

/-- The clock moves on, and all happens that then can. -/
def tick (r : Rehearsal State Action) (now : Time) (s : State) : Time × State :=
  (now + 1, r.settle (now + 1) s)

/-- The clock moves on by some milliseconds. -/
def advance (r : Rehearsal State Action) : (ticks : Nat) → Time × State → Time × State
  | 0, x => x
  | ticks + 1, (now, s) => advance r ticks (r.tick now s)

/-- The clock moves on until something holds, but not longer than some milliseconds. -/
def advanceUntil (r : Rehearsal State Action) (finished : State → Bool) :
    (ticks : Nat) → Time × State → Time × State
  | 0, x => x
  | ticks + 1, (now, s) =>
    if finished s then (now, s) else advanceUntil r finished ticks (r.tick now s)

/-- What a rehearsal plays is a run of its machine. -/
theorem reach_settleWithin (r : Rehearsal State Action) {initial s : State} {now : Time}
    (h : r.machine.Reach (fun _ => True) initial now s) (limit : Nat) :
    r.machine.Reach (fun _ => True) initial now (r.settleWithin now limit s) := by
  induction limit generalizing s with
  | zero => exact h
  | succ n ih =>
    unfold settleWithin
    split
    · exact h
    · rename_i s' hs
      obtain ⟨a, _, ha⟩ := List.exists_of_findSome?_eq_some hs
      exact ih (.act h trivial ha)

end Rehearsal

end OnionPool
