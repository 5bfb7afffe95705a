import OnionPool.Text.Decimal

/-!
# Ports

A port is a 16-bit number, written in decimal.
-/

namespace OnionPool

abbrev Port := UInt16

/-- The first number that is no port. -/
def portBound : Nat := 65536

def Port.text (p : Port) : String := Text.decimal p.toNat

/-- The port that a text denotes. -/
def Port.read? (s : List Char) : Option Port :=
  (Text.Decimal.read? portBound s).map UInt16.ofNat

end OnionPool
