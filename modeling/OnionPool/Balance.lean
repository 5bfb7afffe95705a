import OnionPool.Text.Split

/-!
# Load balancing

The policy by which the reverse proxy spreads connections over its backends, the names under which
it can be chosen, and the keyword that selects it in the proxy's configuration.
-/

namespace OnionPool

/-- How connections are spread over the backends. -/
inductive Balance where
  | roundRobin
  | leastConnections
  deriving DecidableEq

namespace Balance

/-- The names that choose `leastConnections`. -/
def leastConnectionsNames : List String :=
  ["least_connections", "leastconnections", "least-connections", "least_conn", "leastconn"]

/-- The policy that a name chooses, whatever its case; every other name means `roundRobin`. -/
def ofName (name : String) : Balance :=
  if (leastConnectionsNames.map String.toList).contains (Text.lower name.toList) then
    leastConnections
  else roundRobin

def name : Balance → String
  | roundRobin => "round_robin"
  | leastConnections => "least_connections"

/-- The keyword in the proxy's configuration. -/
def keyword : Balance → String
  | roundRobin => "roundrobin"
  | leastConnections => "leastconn"

@[simp] theorem ofName_name (b : Balance) : ofName b.name = b := by
  cases b <;> decide

end Balance

end OnionPool
