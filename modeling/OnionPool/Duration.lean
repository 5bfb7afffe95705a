import OnionPool.Text.Decimal

/-!
# Durations

A duration is a number of nanoseconds. Its text uses the largest of four units of which it holds at
least one, and as many decimals as it takes to be exact.
-/

namespace OnionPool

/-- A length of time. -/
structure Duration where
  nanos : Nat
  deriving DecidableEq

namespace Duration

def ofMillis (n : Nat) : Duration := ⟨n * 1000000⟩

def ofSecs (n : Nat) : Duration := ⟨n * 1000000000⟩

def millis (d : Duration) : Nat := d.nanos / 1000000

/-- The milliseconds that a clock with that step needs to see it pass. -/
def ticks (d : Duration) : Nat := (d.nanos + 999999) / 1000000

def secs (d : Duration) : Nat := d.nanos / 1000000000

/-- The digits of a fraction `n / 10 ^ places`, without trailing zeros. -/
def decimals (places n : Nat) : List Char :=
  let ds := Text.Decimal.digits n
  let padded := List.replicate (places - ds.length) '0' ++ ds
  (padded.reverse.dropWhile (· = '0')).reverse

/-- A count of units of `10 ^ places` nanoseconds, with the fraction that is left over. -/
def inUnits (nanos places : Nat) (unit : String) : String :=
  let fraction :=
    if nanos % Nat.pow 10 places = 0 then [] else decimals places (nanos % Nat.pow 10 places)
  let point := if fraction = [] then [] else ['.']
  String.ofList (Text.Decimal.digits (nanos / Nat.pow 10 places) ++ point ++ fraction) ++ unit

/-- The duration in its largest fitting unit: seconds, milliseconds, microseconds, nanoseconds. -/
def text (d : Duration) : String :=
  if Nat.pow 10 9 ≤ d.nanos then inUnits d.nanos 9 "s"
  else if Nat.pow 10 6 ≤ d.nanos then inUnits d.nanos 6 "ms"
  else if Nat.pow 10 3 ≤ d.nanos then inUnits d.nanos 3 "µs"
  else inUnits d.nanos 0 "ns"

@[simp] theorem millis_ofMillis (n : Nat) : (ofMillis n).millis = n := by
  simp [ofMillis, millis]

@[simp] theorem ticks_ofMillis (n : Nat) : (ofMillis n).ticks = n := by
  simp [ofMillis, ticks]; omega

@[simp] theorem secs_ofSecs (n : Nat) : (ofSecs n).secs = n := by
  simp [ofSecs, secs]

@[simp] theorem millis_ofSecs (n : Nat) : (ofSecs n).millis = 1000 * n := by
  simp [ofSecs, millis]; omega

end Duration

end OnionPool
