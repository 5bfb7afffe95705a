/-!
# Machines with a clock

A machine moves by actions. Some actions are urgent: they happen as soon as they can. The others are
up to the surroundings, which may perform them at any time or never. The clock moves on, by one
millisecond, only when no urgent action can happen any more.
-/

namespace OnionPool

/-- A moment, or a length of time, in milliseconds. -/
abbrev Time := Nat

/-- How states change, at a given time, by actions that are possible or not. -/
structure Machine (State Action : Type) where
  /-- What an action makes of a state, if it can happen. -/
  step : Time → State → Action → Option State
  /-- Whether an action happens as soon as it can. -/
  urgent : Action → Bool

namespace Machine

variable {State Action : Type}

/-- Nothing more happens at this instant unless the surroundings act. -/
def Quiet (m : Machine State Action) (now : Time) (s : State) : Prop :=
  ∀ a, m.urgent a = true → m.step now s a = none

/-- The moments and states that a machine can come to from a state at time zero, if only actions
with a given property happen. -/
inductive Reach (m : Machine State Action) (allowed : Action → Prop) (initial : State) :
    Time → State → Prop
  | start : Reach m allowed initial 0 initial
  | act {now : Time} {s s' : State} {a : Action} :
      Reach m allowed initial now s → allowed a → m.step now s a = some s' →
      Reach m allowed initial now s'
  | tick {now : Time} {s : State} :
      Reach m allowed initial now s → m.Quiet now s → Reach m allowed initial (now + 1) s

/-- What holds at the start and is kept by every action and every tick holds always. -/
theorem Reach.induct {m : Machine State Action} {allowed : Action → Prop} {initial : State}
    {P : Time → State → Prop} (start : P 0 initial)
    (act : ∀ {now s s' a}, P now s → allowed a → m.step now s a = some s' → P now s')
    (tick : ∀ {now s}, P now s → m.Quiet now s → P (now + 1) s)
    {now : Time} {s : State} (h : Reach m allowed initial now s) : P now s := by
  induction h with
  | start => exact start
  | act _ ha hs ih => exact act ih ha hs
  | tick _ hq ih => exact tick ih hq

/-- What can be reached with fewer actions can be reached with more. -/
theorem Reach.mono {m : Machine State Action} {allowed allowed' : Action → Prop} {initial : State}
    (h : ∀ a, allowed a → allowed' a) {now : Time} {s : State}
    (r : Reach m allowed initial now s) : Reach m allowed' initial now s := by
  induction r with
  | start => exact .start
  | act _ ha hs ih => exact .act ih (h _ ha) hs
  | tick _ hq ih => exact .tick ih hq

end Machine

end OnionPool
