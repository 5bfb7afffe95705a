import OnionPool.Port.Basic

/-!
# JSON values

The values that the status interface answers with. Objects keep the order of their fields.
-/

namespace OnionPool.Api

/-- A JSON value with whole numbers. -/
inductive Json where
  | null
  | bool (b : Bool)
  | number (n : Nat)
  | text (s : String)
  | list (items : List Json)
  | object (fields : List (String × Json))

namespace Json

/-- A value that may be missing. -/
def optional {α : Type} (f : α → Json) : Option α → Json
  | none => null
  | some a => f a

def port (p : Port) : Json := number p.toNat

def ports (ps : List Port) : Json := list (ps.map port)

end Json

end OnionPool.Api
