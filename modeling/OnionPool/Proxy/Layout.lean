import OnionPool.Config.Basic
import OnionPool.Port.Set

/-!
# The text of the proxy's configuration

The configuration is a sequence of sections; a section is a heading and indented lines, and a blank
line stands between two sections. Everything that it depends on is in its description.
-/

namespace OnionPool.Proxy

/-- What the configuration says. -/
structure Layout where
  /-- The port that clients connect to. -/
  port : Port
  /-- The port of the statistics page, if there is one. -/
  statsPort : Option Port
  /-- The most connections at once. -/
  maxConn : UInt32
  balance : Balance
  /-- The ports of the forwarders that connections are spread over. -/
  backends : PortSet
  deriving DecidableEq

namespace Layout

def ofSettings (s : ProxySettings) (backends : PortSet) : Layout :=
  ⟨s.port, s.statsPort, s.maxConn, s.balance, backends⟩

def globalLines (l : Layout) : List String := [
  "global",
  "  maxconn " ++ Text.decimal l.maxConn.toNat]

def defaultLines : List String := [
  "defaults",
  "  mode http",
  "  maxconn 1024",
  "  option  httplog",
  "  option  dontlognull",
  "  retries 3",
  "  timeout connect 5s",
  "  timeout client  30s",
  "  timeout server  30s"]

def statsLines (port : Port) : List String := [
  "listen stats",
  "  bind            :" ++ port.text,
  "  mode            http",
  "  maxconn 10",
  "  timeout client  100s",
  "  timeout server  100s",
  "  timeout connect 100s",
  "  timeout queue   100s",
  "  stats enable",
  "  stats hide-version",
  "  stats refresh 30s",
  "  stats show-node",
  "  stats uri /haproxy?stats"]

def frontendLines (l : Layout) : List String := [
  "frontend rotating_proxies",
  "  bind *:" ++ l.port.text,
  "  default_backend privoxies",
  "  option http_proxy"]

def serverLine (port : Port) : String :=
  "  server privoxy-" ++ port.text ++ " 127.0.0.1:" ++ port.text ++ " check"

def backendLines (l : Layout) : List String := [
  "backend privoxies",
  "  balance " ++ l.balance.keyword,
  "  timeout http-keep-alive 3000",
  "  option forwardfor",
  "  option http-server-close",
  "  option http_proxy"] ++ l.backends.toList.map serverLine

/-- The section of the statistics page with the blank line behind it, if there is one. -/
def statsPart (l : Layout) : List String :=
  match l.statsPort with
  | none => []
  | some port => statsLines port ++ [""]

def lines (l : Layout) : List String :=
  l.globalLines ++ [""] ++ defaultLines ++ [""] ++ l.statsPart ++ l.frontendLines ++ [""] ++
    l.backendLines

/-- Lines as a text, each with a line feed behind it. -/
def unlines (ls : List String) : String := String.join (ls.map (· ++ "\n"))

/-- The text of the configuration. -/
def render (l : Layout) : String := unlines l.lines

end Layout

end OnionPool.Proxy
