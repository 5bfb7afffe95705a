/-!
# The life of a pair

A pair leases its ports, starts, serves, retires and is done. A launch that fails leads back to the
lease; a stop before the pair serves ends its life at once, while a pair that serves is always
retired first.
-/

namespace OnionPool

/-- Where a pair is in its life. -/
inductive PairState where
  | allocating
  | starting
  | registered
  | retiring
  | done
  deriving DecidableEq

/-- What moves a pair on. -/
inductive PairEvent where
  | portsLeased
  | launchFailed
  | launched
  | retire
  | tornDown
  | shutdown
  deriving DecidableEq

/-- Why a pair that served was retired. -/
inductive RetireReason where
  | shutdown
  | circuitExited
  | forwarderExited
  | expired
  deriving DecidableEq

namespace PairEvent

def name : PairEvent → String
  | portsLeased => "PortsLeased"
  | launchFailed => "LaunchFailed"
  | launched => "Launched"
  | retire => "Retire"
  | tornDown => "TornDown"
  | shutdown => "Shutdown"

end PairEvent

namespace PairState

/-- All moves: the state, the event, and the state after it. -/
def moves : List (PairState × PairEvent × PairState) := [
  (allocating, .portsLeased, starting),
  (allocating, .launchFailed, allocating),
  (allocating, .shutdown, done),
  (starting, .launched, registered),
  (starting, .launchFailed, allocating),
  (starting, .shutdown, done),
  (registered, .retire, retiring),
  (retiring, .tornDown, done)]

/-- The state after an event, if the event means anything in this state. -/
def next? (s : PairState) (e : PairEvent) : Option PairState :=
  (moves.find? fun (source, event, _) => source = s ∧ event = e).map fun (_, _, target) => target

def isDone (s : PairState) : Bool := s = done

def name : PairState → String
  | allocating => "allocating"
  | starting => "starting"
  | registered => "registered"
  | retiring => "retiring"
  | done => "done"

theorem next?_done (e : PairEvent) : next? done e = none := by cases e <;> decide

end PairState

namespace RetireReason

def text : RetireReason → String
  | shutdown => "application terminating"
  | circuitExited => "tor ended"
  | forwarderExited => "privoxy ended"
  | expired => "proxy lifetime expired"

end RetireReason

end OnionPool
