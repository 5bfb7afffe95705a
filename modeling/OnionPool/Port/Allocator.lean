import OnionPool.Port.Set

/-!
# Leasing ports

An allocator leases the ports of a range. A cursor walks up through the range and wraps around at
its end; it passes over leased ports, so a port that was given back is not leased again before all
idle ports after it have had their turn.
-/

namespace OnionPool

/-- The ports from `floor` up to, but not including, `ceiling`. -/
structure PortRange where
  floor : Port
  ceiling : Port
  deriving DecidableEq

namespace PortRange

/-- The number of its ports. -/
def span (r : PortRange) : Nat := r.ceiling.toNat - r.floor.toNat

/-- The port after `p`; the last port is followed by the first. -/
def next (r : PortRange) (p : Port) : Port :=
  if r.ceiling ≤ p + 1 then r.floor else p + 1

end PortRange

/-- Which ports of a range are leased, and where the search for the next one begins. -/
structure PortAllocator where
  range : PortRange
  cursor : Port
  leased : PortSet
  deriving DecidableEq

namespace PortAllocator

/-- An allocator with every port of the range idle. -/
def new (range : PortRange) : PortAllocator := ⟨range, range.floor, .empty⟩

/-- Up to `tries` ports from the cursor on: the first that is not leased becomes leased. The cursor
moves behind each port that is tried. -/
def scan : (tries : Nat) → PortAllocator → Option Port × PortAllocator
  | 0, a => (none, a)
  | tries + 1, a =>
    let moved := { a with cursor := a.range.next a.cursor }
    if a.leased.contains a.cursor then scan tries moved
    else (some a.cursor, { moved with leased := a.leased.insert a.cursor })

/-- The next port, or none if every port of the range is leased. -/
def lease (a : PortAllocator) : Option Port × PortAllocator := scan a.range.span a

def release (a : PortAllocator) (p : Port) : PortAllocator :=
  { a with leased := a.leased.erase p }

/-- The leased ports, in ascending order. -/
def inUse (a : PortAllocator) : List Port := a.leased.toList

@[simp] theorem range_scan (tries : Nat) (a : PortAllocator) :
    (scan tries a).2.range = a.range := by
  induction tries generalizing a with
  | zero => rfl
  | succ n ih => unfold scan; split <;> simp [ih]

@[simp] theorem range_lease (a : PortAllocator) : a.lease.2.range = a.range := range_scan _ a

@[simp] theorem range_release (a : PortAllocator) (p : Port) : (a.release p).range = a.range := rfl

end PortAllocator

end OnionPool
