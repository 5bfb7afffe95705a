import OnionPool.Balance
import OnionPool.Config.Environment
import OnionPool.Duration
import OnionPool.FileTree.Path
import OnionPool.Port.Allocator

/-!
# Configuration

The settings of the application, and how they are read from the environment. Settings are read in a
fixed order, and the first that has no meaning is the one that is reported.
-/

namespace OnionPool

/-- Settings of the entry point. -/
structure ProxySettings where
  port : Port
  /-- The port of the statistics page, if there is one. -/
  statsPort : Option Port
  maxConn : UInt32
  balance : Balance
  deriving DecidableEq

/-- Settings of the pool. -/
structure PoolSettings where
  size : Nat
  /-- How long a pair serves. -/
  lifetime : Duration
  /-- How long a circuit is used. -/
  circuitPeriod : Duration
  /-- How long a fresh process has to survive. -/
  settle : Duration
  /-- The pause after a failed launch. -/
  retryBackoff : Duration
  deriving DecidableEq

/-- When the entry point takes over changes. -/
structure ReloadTimings where
  /-- A burst of changes is over when nothing came for this long. -/
  quiet : Duration
  /-- No burst delays a reload longer than this. -/
  ceiling : Duration
  /-- How long a replaced instance may go on serving. -/
  grace : Duration
  deriving DecidableEq

/-- The programs that are needed. -/
structure ProgramNames where
  tor : String
  privoxy : String
  haproxy : String
  deriving DecidableEq

/-- Settings of the status interface. -/
structure ApiSettings where
  enabled : Bool
  host : String
  port : Port
  deriving DecidableEq

/-- Settings of the log. -/
structure LogSettings where
  level : String
  format : String
  deriving DecidableEq

structure Config where
  proxy : ProxySettings
  pool : PoolSettings
  ports : PortRange
  reload : ReloadTimings
  programs : ProgramNames
  api : ApiSettings
  log : LogSettings
  /-- The directory that holds the directories of all processes. -/
  workDir : Path
  deriving DecidableEq

/-- Why a configuration is refused. -/
inductive ConfigFault where
  /-- A variable does not denote a number of its width. -/
  | badValue (name : String)
  /-- The range of ports does not end above its start. -/
  | emptyRange (range : PortRange)
  /-- There would be no pair. -/
  | emptyPool
  /-- A pair needs two ports at once, and the range has not that many. -/
  | smallRange (range : PortRange) (size : Nat)
  deriving DecidableEq

namespace ConfigFault

def message : ConfigFault → String
  | badValue name => name ++ " has an invalid value"
  | emptyRange range =>
    "PORT_RANGE_START (" ++ range.floor.text ++ ") must be below PORT_RANGE_END (" ++
      range.ceiling.text ++ ")"
  | emptyPool => "POOL_SIZE must be at least 1"
  | smallRange range size =>
    "port range " ++ range.floor.text ++ "-" ++ range.ceiling.text ++ " is too small for " ++
      Text.decimal size ++ " pairs"

end ConfigFault

namespace Config

/-- The first number that has more than `bits` bits. -/
def width (bits : Nat) : Nat := Nat.pow 2 bits

/-- The number that a variable denotes. -/
def number (env : Environment) (name default : String) (bits : Nat) : Except ConfigFault Nat :=
  match env.number? name default (width bits) with
  | some n => .ok n
  | none => .error (.badValue name)

/-- The port that a variable denotes. -/
def port (env : Environment) (name default : String) : Except ConfigFault Port :=
  UInt16.ofNat <$> number env name default 16

/-- The number of seconds that a variable denotes. -/
def seconds (env : Environment) (name default : String) : Except ConfigFault Duration :=
  Duration.ofSecs <$> number env name default 64

/-- The number of milliseconds that a variable denotes. -/
def milliseconds (env : Environment) (name default : String) : Except ConfigFault Duration :=
  Duration.ofMillis <$> number env name default 64

/-- Goes on only if a condition holds. -/
def require (condition : Prop) [Decidable condition] (fault : ConfigFault) :
    Except ConfigFault Unit :=
  if condition then .ok () else .error fault

/-- The settings that the environment gives. -/
def read (env : Environment) : Except ConfigFault Config := do
  let statsPort ← port env "STATS_PORT" "0"
  let floor ← port env "PORT_RANGE_START" "30000"
  let ceiling ← port env "PORT_RANGE_END" "65535"
  let range : PortRange := ⟨floor, ceiling⟩
  require (floor < ceiling) (.emptyRange range)
  let size ← number env "POOL_SIZE" "3" 64
  require (1 ≤ size) .emptyPool
  require (size ≤ range.span / 2) (.smallRange range size)
  let proxyPort ← port env "PROXY_PORT" "8080"
  let maxConn ← number env "PROXY_MAX_CONN" "256" 32
  let lifetime ← seconds env "MAX_PROXY_TIME" "900"
  let circuitPeriod ← seconds env "CIRCUIT_TIME" "120"
  let settle ← milliseconds env "SETTLE_MS" "250"
  let retryBackoff ← milliseconds env "RETRY_BACKOFF_MS" "500"
  let quiet ← milliseconds env "RELOAD_QUIET_MS" "2000"
  let reloadCeiling ← milliseconds env "RELOAD_CEILING_MS" "10000"
  let grace ← seconds env "HANDOFF_GRACE_SECS" "30"
  let apiPort ← port env "API_PORT" "8081"
  return {
    proxy := {
      port := proxyPort
      statsPort := if statsPort = 0 then none else some statsPort
      maxConn := UInt32.ofNat maxConn
      balance := Balance.ofName (env.textOr "PROXY_BALANCE" "round_robin") }
    pool := { size, lifetime, circuitPeriod, settle, retryBackoff }
    ports := range
    reload := { quiet, ceiling := reloadCeiling, grace }
    programs := {
      tor := env.textOr "TOR_BIN" "tor"
      privoxy := env.textOr "PRIVOXY_BIN" "privoxy"
      haproxy := env.textOr "HAPROXY_BIN" "haproxy" }
    api := {
      enabled := env.flag "API_ENABLED"
      host := env.textOr "API_HOST" "127.0.0.1"
      port := apiPort }
    log := {
      level := env.textOr "LOG_LEVEL" "info"
      format := env.textOr "LOG_FORMAT" "json" }
    workDir := env.textOr "WORK_DIR" "/tmp/torotator" }

def apiAddress (c : Config) : String := c.api.host ++ ":" ++ c.api.port.text

def proxyDir (c : Config) : Path := Path.join c.workDir "haproxy"

end Config

end OnionPool
