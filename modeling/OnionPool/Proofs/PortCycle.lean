import Mathlib.Data.List.Nodup
import Mathlib.Data.List.Perm.Subperm
import OnionPool.Proofs.PortLease

/-!
# The round of the cursor

The cursor of an allocator goes round its range. A search tries as many ports as the range has, so
it tries each of them once, whatever port it begins with; it fails only if all of them are leased.

## Structure

- `PortRange.position` says where a port stands in its range; `position_iterate` follows the cursor
  round, and `exists_iterate_eq` says that it comes to every port. `PortRange.distance` counts the
  steps, and `span_le_of_iterate_eq` says that it comes back no sooner than it has gone round.
- `PortAllocator.mem_leased_of_lease_none` says that a search fails only if nothing is idle,
  `PortAllocator.exists_lease` counts that.
-/

namespace OnionPool

/-! ## Positions -/

namespace PortRange

/-- The ports of a range: its floor belongs to it, its ceiling does not. -/
instance : Membership Port PortRange := ⟨fun r p => r.floor ≤ p ∧ p < r.ceiling⟩

/-- Where a port stands in its range. -/
def position (r : PortRange) (p : Port) : Nat := p.toNat - r.floor.toNat

section Positions

variable {r : PortRange} {p q : Port}

theorem mem_iff_toNat : p ∈ r ↔ r.floor.toNat ≤ p.toNat ∧ p.toNat < r.ceiling.toNat := by
  show r.floor ≤ p ∧ p < r.ceiling ↔ _
  rw [UInt16.le_iff_toNat_le, UInt16.lt_iff_toNat_lt]

theorem floor_mem (h : r.floor < r.ceiling) : r.floor ∈ r := ⟨UInt16.le_refl _, h⟩

theorem position_lt (h : p ∈ r) : r.position p < r.span := by
  obtain ⟨hfloor, hceiling⟩ := mem_iff_toNat.mp h
  unfold position span
  omega

theorem ascending_of_span_pos (h : 0 < r.span) : r.floor < r.ceiling :=
  UInt16.lt_iff_toNat_lt.mpr (Nat.lt_of_sub_pos h)

theorem ascending_of_mem (h : p ∈ r) : r.floor < r.ceiling :=
  ascending_of_span_pos (Nat.zero_lt_of_lt (position_lt h))

theorem eq_of_position_eq (hp : p ∈ r) (hq : q ∈ r) (h : r.position p = r.position q) : p = q := by
  apply UInt16.toNat_inj.mp
  have hp' := (mem_iff_toNat.mp hp).1
  have hq' := (mem_iff_toNat.mp hq).1
  unfold position at h
  omega

/-- Below the ceiling one can be added without an overflow. -/
theorem toNat_add_one (h : p ∈ r) : (p + 1).toNat = p.toNat + 1 := by
  have hp := (mem_iff_toNat.mp h).2
  have hbound := r.ceiling.toNat_lt
  rw [UInt16.toNat_add]
  show (p.toNat + 1) % 65536 = p.toNat + 1
  omega

theorem next_mem (h : p ∈ r) : r.next p ∈ r := by
  obtain ⟨hfloor, hceiling⟩ := mem_iff_toNat.mp h
  unfold next
  split
  next =>
    -- The cursor wraps around.
    apply mem_iff_toNat.mpr
    omega
  next hbelow =>
    apply mem_iff_toNat.mpr
    rw [UInt16.le_iff_toNat_le] at hbelow
    rw [toNat_add_one h] at hbelow ⊢
    omega

/-- The next port is one place further, and after the last one the first one follows. -/
theorem position_next (h : p ∈ r) : r.position (r.next p) = (r.position p + 1) % r.span := by
  obtain ⟨hfloor, hceiling⟩ := mem_iff_toNat.mp h
  unfold next
  split
  next hwrap =>
    -- The last port of the range is followed by the first one.
    rw [UInt16.le_iff_toNat_le, toNat_add_one h] at hwrap
    have hlast : r.position p + 1 = r.span := by
      unfold position span
      omega
    rw [hlast, Nat.mod_self]
    exact Nat.sub_self _
  next hbelow =>
    rw [UInt16.le_iff_toNat_le, toNat_add_one h] at hbelow
    have hposition : r.position (p + 1) = r.position p + 1 := by
      unfold position
      rw [toNat_add_one h]
      omega
    have hlt : r.position p + 1 < r.span := by
      unfold position span
      omega
    rw [hposition, Nat.mod_eq_of_lt hlt]

theorem iterate_next_mem (h : p ∈ r) (k : Nat) : r.next^[k] p ∈ r := by
  induction k with
  | zero => exact h
  | succ k ih =>
    rw [Function.iterate_succ_apply']
    exact next_mem ih

/-- The ports are passed one after the other. -/
theorem position_iterate (h : p ∈ r) (k : Nat) :
    r.position (r.next^[k] p) = (r.position p + k) % r.span := by
  induction k with
  | zero =>
    rw [Function.iterate_zero_apply, Nat.add_zero, Nat.mod_eq_of_lt (position_lt h)]
  | succ k ih =>
    rw [Function.iterate_succ_apply', position_next (iterate_next_mem h k), ih, Nat.mod_add_mod,
      Nat.add_assoc]

/-- How many steps upward it is from a port to another one; the last port is followed by the
first. -/
def distance (r : PortRange) (p q : Port) : Nat :=
  (r.position q + (r.span - r.position p)) % r.span

theorem distance_lt (h : p ∈ r) : r.distance p q < r.span :=
  Nat.mod_lt _ (Nat.zero_lt_of_lt (position_lt h))

/-- From every port of the range the cursor comes to every other one. -/
theorem iterate_distance (hp : p ∈ r) (hq : q ∈ r) : r.next^[r.distance p q] p = q := by
  have hp' := position_lt hp
  have hq' := position_lt hq
  apply eq_of_position_eq (iterate_next_mem hp _) hq
  calc r.position (r.next^[r.distance p q] p)
      = (r.position p + (r.position q + (r.span - r.position p))) % r.span := by
        rw [position_iterate hp, distance, Nat.add_mod_mod]
    _ = (r.position q + r.span) % r.span := by
        congr 1
        omega
    _ = r.position q := by
        rw [Nat.add_mod_right, Nat.mod_eq_of_lt hq']

/-- Within one round, the distance is the number of steps. -/
theorem distance_iterate (h : p ∈ r) {k : Nat} (hk : k < r.span) :
    r.distance p (r.next^[k] p) = k := by
  have hp := position_lt h
  calc r.distance p (r.next^[k] p)
      = (r.position p + k + (r.span - r.position p)) % r.span := by
        rw [distance, position_iterate h, Nat.mod_add_mod]
    _ = (k + r.span) % r.span := by
        congr 1
        omega
    _ = k := by
        rw [Nat.add_mod_right, Nat.mod_eq_of_lt hk]

/-- **The round**: from every port of the range the cursor comes to every other one within as many
steps as the range has ports. -/
theorem exists_iterate_eq (hp : p ∈ r) (hq : q ∈ r) : ∃ k < r.span, r.next^[k] p = q :=
  ⟨r.distance p q, distance_lt hp, iterate_distance hp hq⟩

/-- After a whole round the cursor is where it was. -/
theorem iterate_span (h : p ∈ r) : r.next^[r.span] p = p := by
  apply eq_of_position_eq (iterate_next_mem h _) h
  rw [position_iterate h, Nat.add_mod_right, Nat.mod_eq_of_lt (position_lt h)]

/-- The cursor does not come back before it has gone round. -/
theorem span_le_of_iterate_eq (h : p ∈ r) {k : Nat} (pos : 0 < k) (back : r.next^[k] p = p) :
    r.span ≤ k := by
  by_contra hlt
  have hdistance := distance_iterate h (Nat.lt_of_not_le hlt)
  have hself := distance_iterate h (k := 0) (Nat.zero_lt_of_lt (position_lt h))
  rw [back] at hdistance
  rw [Function.iterate_zero_apply] at hself
  omega

end Positions

end PortRange

/-! ## Searches that fail -/

/-- A set with all ports of a range has at least as many members. -/
theorem PortSet.span_le_size {s : PortSet} {r : PortRange} (h : ∀ p ∈ r, p ∈ s) :
    r.span ≤ s.size := by
  -- The ports of the range, each once.
  let ports : List Port := (List.range r.span).map fun k => UInt16.ofNat (r.floor.toNat + k)
  have htoNat : ∀ k < r.span, (UInt16.ofNat (r.floor.toNat + k)).toNat = r.floor.toNat + k := by
    intro k hk
    have hbound := r.ceiling.toNat_lt
    unfold PortRange.span at hk
    apply UInt16.toNat_ofNat_of_lt'
    show r.floor.toNat + k < 65536
    omega
  have hnodup : ports.Nodup := by
    apply List.Nodup.map_on _ List.nodup_range
    intro k hk l hl hsame
    have hk' := htoNat k (List.mem_range.mp hk)
    have hl' := htoNat l (List.mem_range.mp hl)
    rw [hsame, hl'] at hk'
    omega
  have hsubset : ports ⊆ s.toList := by
    intro p hp
    obtain ⟨k, hk, rfl⟩ := List.mem_map.mp hp
    have hk' := List.mem_range.mp hk
    apply PortSet.mem_toList.mpr
    apply h
    apply PortRange.mem_iff_toNat.mpr
    rw [htoNat k hk']
    unfold PortRange.span at hk'
    omega
  calc r.span = ports.length := by simp [ports]
    _ ≤ s.toList.length := (List.subperm_of_subset hnodup hsubset).length_le
    _ = s.size := PortSet.length_toList s

namespace PortAllocator

section Searches

variable {tries : Nat} {a b : PortAllocator}

/-- A search that fails has tried one port after the other, and found each of them leased. -/
theorem mem_leased_of_scan_none (h : scan tries a = (none, b)) :
    ∀ k < tries, a.range.next^[k] a.cursor ∈ a.leased := by
  cases search_of_scan h with
  | fails passed => exact passed

/-- **Exactness of the search**: no port is found only if every port of the range is leased. -/
theorem mem_leased_of_lease_none (cursor : a.cursor ∈ a.range) (h : a.lease = (none, b)) :
    ∀ p ∈ a.range, p ∈ a.leased := by
  intro p hp
  obtain ⟨k, hk, rfl⟩ := PortRange.exists_iterate_eq cursor hp
  exact mem_leased_of_scan_none h k hk

/-- As long as fewer ports are leased than the range has, another one can be leased. -/
theorem exists_lease (cursor : a.cursor ∈ a.range) (h : a.leased.size < a.range.span) :
    ∃ p b, a.lease = (some p, b) := by
  rcases hlease : a.lease with ⟨_ | p, b⟩
  · have hspan := PortSet.span_le_size (mem_leased_of_lease_none cursor hlease)
    exact absurd h (Nat.not_lt.mpr hspan)
  · exact ⟨p, b, rfl⟩

/-- The cursor stays in the range. -/
theorem cursor_scan_mem (cursor : a.cursor ∈ a.range) : (scan tries a).2.cursor ∈ a.range := by
  rcases hscan : scan tries a with ⟨port, b⟩
  cases search_of_scan hscan with
  | finds k => exact PortRange.iterate_next_mem cursor (k + 1)
  | fails => exact PortRange.iterate_next_mem cursor tries

/-- A lease leaves the cursor in its range. -/
theorem cursor_lease_mem (cursor : a.cursor ∈ a.range) : a.lease.2.cursor ∈ a.range :=
  cursor_scan_mem cursor

end Searches

end PortAllocator

end OnionPool
