import OnionPool.Command.Startup
import OnionPool.Launch.Chain

/-!
# The command

Reads the configuration from the environment and shows what the application would do with it: the
launch of the reverse proxy, its first configuration, and the launches of a pair. A configuration
without a meaning is refused.
-/

namespace OnionPool

/-- The variables that are read. -/
def variableNames : List String := [
  "PROXY_PORT", "STATS_PORT", "PROXY_MAX_CONN", "PROXY_BALANCE", "POOL_SIZE", "PORT_RANGE_START",
  "PORT_RANGE_END", "MAX_PROXY_TIME", "CIRCUIT_TIME", "SETTLE_MS", "RETRY_BACKOFF_MS",
  "RELOAD_QUIET_MS", "RELOAD_CEILING_MS", "HANDOFF_GRACE_SECS", "TOR_BIN", "PRIVOXY_BIN",
  "HAPROXY_BIN", "API_ENABLED", "API_HOST", "API_PORT", "LOG_LEVEL", "LOG_FORMAT", "WORK_DIR"]

/-- The environment with the values of some variables. -/
def environmentOf (values : List (String × String)) : Environment := fun name =>
  match values.find? (·.1 = name) with
  | some (_, value) => .text value
  | none => .unset

/-- What the application would do: the launches, and the first configuration of the proxy. -/
def describe (c : Config) : String :=
  let plan := Command.proxyPlan c
  let haproxy : Haproxy := ⟨c.programs.haproxy, c.proxy.port, c.pool.settle⟩
  let tor : Tor := ⟨c.programs.tor, c.pool.circuitPeriod, c.pool.settle, "notice"⟩
  let privoxy : Privoxy := ⟨c.programs.privoxy, c.pool.settle⟩
  let circuit := c.ports.floor
  let forwarder := c.ports.next circuit
  let specs : List LaunchSpec := [
    haproxy.spec plan.configPath plan.pidPath none,
    tor.spec circuit (Path.join c.workDir ("tor-" ++ circuit.text)),
    privoxy.spec forwarder (Path.join c.workDir ("privoxy-" ++ forwarder.text))]
  Proxy.Layout.unlines (specs.map (·.record)) ++ plan.render .empty

end OnionPool

def main : IO UInt32 := do
  let values ← OnionPool.variableNames.filterMapM fun name => do
    return (← IO.getEnv name).map fun value => (name, value)
  match OnionPool.Config.read (OnionPool.environmentOf values) with
  | .error fault =>
    IO.eprintln ("Error: " ++ (OnionPool.Failure.invalidConfig fault.message).record)
    return 1
  | .ok c =>
    IO.print (OnionPool.describe c)
    return 0
