import Mathlib.Logic.Function.Iterate
import OnionPool.Port.Allocator

/-!
# What leasing and releasing do to the leased ports

Leases are accounted for by counting: a set of ports counts each of its members once, a lease adds
one port that was idle, and a release takes one port away that was leased.

## Structure

- `PortSet.count` counts a port in a set.
- `PortAllocator.Search` says what a search comes to, and `PortAllocator.search_of_scan` that it
  does so.
- `PortAllocator.count_lease` and `PortAllocator.count_release` count leases and releases.
-/

namespace OnionPool

/-! ## Counting -/

/-- How often a port is in a set. -/
def PortSet.count (s : PortSet) (p : Port) : Nat := if p ∈ s then 1 else 0

section Count

variable {s : PortSet} {p : Port}

@[simp] theorem PortSet.count_empty (p : Port) : PortSet.empty.count p = 0 :=
  if_neg (PortSet.not_mem_empty p)

theorem PortSet.count_pos_iff : 0 < s.count p ↔ p ∈ s := by
  unfold count
  split <;> simp_all

theorem PortSet.count_le_one (s : PortSet) (p : Port) : s.count p ≤ 1 := by
  unfold count
  split <;> decide

theorem PortSet.nodup_toList (s : PortSet) : s.toList.Nodup :=
  s.ascending.imp fun {a b} (hlt : a < b) (heq : a = b) => UInt16.lt_irrefl b (heq ▸ hlt)

/-- The list of the members counts as the set does. -/
theorem PortSet.count_toList (s : PortSet) (p : Port) : s.toList.count p = s.count p := by
  rw [s.nodup_toList.count, count]
  simp only [PortSet.mem_toList]

theorem PortSet.count_insert (h : p ∉ s) (x : Port) :
    (s.insert p).count x = s.count x + [p].count x := by
  by_cases hx : p = x
  · subst hx
    simp [count, h]
  · have hx' : ¬ x = p := fun h => hx h.symm
    simp [count, hx, hx']

theorem PortSet.count_erase (h : p ∈ s) (x : Port) :
    (s.erase p).count x + [p].count x = s.count x := by
  by_cases hx : p = x
  · subst hx
    simp [count, h]
  · have hx' : x ≠ p := fun h => hx h.symm
    simp [count, hx, hx']

end Count

/-! ## Leases -/

namespace PortAllocator

/-- What a search of some tries comes to: the ports from the cursor on are tried one after the
other, until one of them is idle. -/
inductive Search (tries : Nat) (a : PortAllocator) : Option Port → PortAllocator → Prop where
  | finds (k : Nat) (lt : k < tries)
      (passed : ∀ j < k, a.range.next^[j] a.cursor ∈ a.leased)
      (idle : a.range.next^[k] a.cursor ∉ a.leased) :
      Search tries a (some (a.range.next^[k] a.cursor))
        { a with
          cursor := a.range.next^[k + 1] a.cursor
          leased := a.leased.insert (a.range.next^[k] a.cursor) }
  | fails (passed : ∀ j < tries, a.range.next^[j] a.cursor ∈ a.leased) :
      Search tries a none { a with cursor := a.range.next^[tries] a.cursor }

/-- A search that passes over the first port is one that begins with the next. -/
theorem Search.pass {tries : Nat} {a b : PortAllocator} {port : Option Port}
    (leased : a.cursor ∈ a.leased)
    (h : Search tries { a with cursor := a.range.next a.cursor } port b) :
    Search (tries + 1) a port b := by
  have hpassed : ∀ {n : Nat}, (∀ j < n, a.range.next^[j] (a.range.next a.cursor) ∈ a.leased) →
      ∀ j < n + 1, a.range.next^[j] a.cursor ∈ a.leased := by
    intro n hn j hj
    cases j with
    | zero => exact leased
    | succ j => exact hn j (Nat.lt_of_succ_lt_succ hj)
  cases h with
  | finds k lt passed idle =>
    exact .finds (k + 1) (Nat.succ_lt_succ lt) (hpassed passed) idle
  | fails passed => exact .fails (hpassed passed)

/-- **Completeness**: every search comes to one of the two. -/
theorem search_of_scan {tries : Nat} {a b : PortAllocator} {port : Option Port}
    (h : scan tries a = (port, b)) : Search tries a port b := by
  -- The cursor moves with each try, so the allocator varies; the leased ports do not.
  induction tries generalizing a with
  | zero =>
    cases h
    exact .fails fun j hj => absurd hj (Nat.not_lt_zero j)
  | succ n ih =>
    unfold scan at h
    dsimp only at h
    split at h
    next hleased => exact (ih h).pass (PortSet.contains_iff.mp hleased)
    next hidle =>
      cases h
      exact .finds 0 (Nat.succ_pos n) (fun j hj => absurd hj (Nat.not_lt_zero j))
        fun hmem => hidle (PortSet.contains_iff.mpr hmem)

/-- A successful search leases a port that was idle, and no other one. -/
theorem scan_some {tries : Nat} {a b : PortAllocator} {p : Port} (h : scan tries a = (some p, b)) :
    p ∉ a.leased ∧ b.leased = a.leased.insert p := by
  cases search_of_scan h with
  | finds k lt passed idle => exact ⟨idle, rfl⟩

/-- A search that fails leases nothing. -/
theorem scan_none {tries : Nat} {a b : PortAllocator} (h : scan tries a = (none, b)) :
    b.leased = a.leased := by
  cases search_of_scan h with
  | fails => rfl

/-- A lease adds the port to those that are leased, once. -/
theorem count_lease {a b : PortAllocator} {p : Port} (h : a.lease = (some p, b)) (x : Port) :
    b.leased.count x = a.leased.count x + [p].count x := by
  obtain ⟨hidle, hleased⟩ := scan_some h
  rw [hleased, PortSet.count_insert hidle]

theorem leased_of_lease_none {a b : PortAllocator} (h : a.lease = (none, b)) :
    b.leased = a.leased := scan_none h

/-- A release takes the port away from those that are leased. -/
theorem count_release {a : PortAllocator} {p : Port} (h : p ∈ a.leased) (x : Port) :
    (a.release p).leased.count x + [p].count x = a.leased.count x := PortSet.count_erase h x

end PortAllocator

end OnionPool
