import OnionPool.Config.Basic

/-!
# What an accepted configuration satisfies

The settings are read one after the other, and the first that has no meaning ends it. So from a
configuration that was read it follows that every setting has a meaning and every check has passed.

## Structure

- `Except.bind_eq_ok` takes one step off a computation that succeeded; `Config.require_eq_ok` reads
  off the condition of a check.
- `Config.Accepted` is what the checks have in common, and `Config.accepted_of_read` says that a
  configuration is not read without it.
-/

namespace OnionPool

/-- A computation that succeeds has succeeded in its first step. -/
theorem Except.bind_eq_ok {ε α β : Type} {x : Except ε α} {f : α → Except ε β} {b : β}
    (h : (x >>= f) = .ok b) : ∃ a, x = .ok a ∧ f a = .ok b := by
  cases x with
  | error e => cases h
  | ok a => exact ⟨a, rfl, h⟩

namespace Config

theorem require_eq_ok {condition : Prop} [Decidable condition] {fault : ConfigFault} {u : Unit}
    (h : require condition fault = .ok u) : condition := by
  unfold require at h
  split at h
  next holds => exact holds
  next => cases h

/-- The range has ports, there is at least one pair, and each pair finds two ports. -/
structure Accepted (c : Config) : Prop where
  ascending : c.ports.floor < c.ports.ceiling
  populated : 1 ≤ c.pool.size
  ample : c.pool.size ≤ c.ports.span / 2

/-- No configuration is read without the checks. -/
theorem accepted_of_read {env : Environment} {c : Config} (h : read env = .ok c) : Accepted c := by
  unfold read at h
  obtain ⟨statsPort, -, h⟩ := Except.bind_eq_ok h
  obtain ⟨floor, -, h⟩ := Except.bind_eq_ok h
  obtain ⟨ceiling, -, h⟩ := Except.bind_eq_ok h
  obtain ⟨_, hascending, h⟩ := Except.bind_eq_ok h
  obtain ⟨size, -, h⟩ := Except.bind_eq_ok h
  obtain ⟨_, hpopulated, h⟩ := Except.bind_eq_ok h
  obtain ⟨_, hample, h⟩ := Except.bind_eq_ok h
  -- What is read after the checks changes neither the range nor the size.
  obtain ⟨proxyPort, -, h⟩ := Except.bind_eq_ok h
  obtain ⟨maxConn, -, h⟩ := Except.bind_eq_ok h
  obtain ⟨lifetime, -, h⟩ := Except.bind_eq_ok h
  obtain ⟨circuitPeriod, -, h⟩ := Except.bind_eq_ok h
  obtain ⟨settle, -, h⟩ := Except.bind_eq_ok h
  obtain ⟨retryBackoff, -, h⟩ := Except.bind_eq_ok h
  obtain ⟨quiet, -, h⟩ := Except.bind_eq_ok h
  obtain ⟨reloadCeiling, -, h⟩ := Except.bind_eq_ok h
  obtain ⟨grace, -, h⟩ := Except.bind_eq_ok h
  obtain ⟨apiPort, -, h⟩ := Except.bind_eq_ok h
  cases h
  exact ⟨require_eq_ok hascending, require_eq_ok hpopulated, require_eq_ok hample⟩

end Config

end OnionPool
