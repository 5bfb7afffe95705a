import OnionPool.Port.Set

/-!
# The registry of ports

The registry says which ports get traffic. It performs one operation after the other, and each says
what came of it. A snapshot belongs to whoever asked for it, and the registry goes on without it.
-/

namespace OnionPool

/-- The ports in the registry, and the snapshots of it that were handed out, in order. -/
structure Registry where
  ports : PortSet := .empty
  snapshots : List PortSet := []

namespace Registry

/-- What can be asked of the registry. -/
inductive Operation where
  | insert (p : Port)
  | remove (p : Port)
  | contains (p : Port)
  | snapshot
  deriving DecidableEq

/-- What comes of an operation. -/
inductive Answer where
  /-- Whether a port is there, or was put in or taken out. -/
  | flag (b : Bool)
  | ports (s : PortSet)
  deriving DecidableEq

/-- An operation, with what comes of it. -/
def perform (r : Registry) : Operation → Answer × Registry
  | .insert p => (.flag (!r.ports.contains p), { r with ports := r.ports.insert p })
  | .remove p => (.flag (r.ports.contains p), { r with ports := r.ports.erase p })
  | .contains p => (.flag (r.ports.contains p), r)
  | .snapshot => (.ports r.ports, { r with snapshots := r.snapshots ++ [r.ports] })

def size (r : Registry) : Nat := r.ports.size

def isEmpty (r : Registry) : Bool := r.size == 0

end Registry

end OnionPool
