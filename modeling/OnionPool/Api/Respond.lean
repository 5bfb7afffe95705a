import OnionPool.Api.Json
import OnionPool.Pool.State
import OnionPool.Proxy.Status

/-!
# The status interface

Two resources can be read: whether the application is healthy, and what it does. It is healthy as
long as the reverse proxy has an instance and no shutdown is under way.
-/

namespace OnionPool.Api

/-- What the interface can see. -/
structure View where
  shuttingDown : Bool
  proxy : Proxy.Status
  capacity : Nat
  pool : Pool.Stats
  leasedPorts : List Port

/-- An answer: its status, the methods that are allowed if another one was used, and a value if
there is one. The value of an answer to `HEAD` is left out. -/
structure Response where
  status : Nat
  allow : Option String := none
  hasType : Bool := false
  body : Option Json := none

def version : String := "0.1.0"

/-- An answer with a value. -/
def Response.ofJson (status : Nat) (body : Json) : Response := ⟨status, none, true, some body⟩

def Response.ofFailure (f : Failure) : Response :=
  .ofJson f.status (.object [("error", .text f.message)])

/-- Whether the application is healthy. -/
def health (v : View) : Response :=
  if v.shuttingDown then .ofFailure .shuttingDown
  else match v.proxy.pid with
    | none => .ofFailure (.internal "reverse proxy is not running")
    | some pid => .ofJson 200 (.object [
      ("status", .text "healthy"), ("service", .text "torotator"), ("proxy_pid", .number pid)])

/-- The report on a reload. -/
def reloadJson (r : Proxy.LastReload) : Json := .object [
  ("generation", .number r.generation),
  ("backends", .ports r.backends),
  ("pid", .optional .number r.pid),
  ("error", .optional .text r.error)]

def proxyJson (s : Proxy.Status) : Json := .object [
  ("port", .port s.port),
  ("stats_port", .optional .port s.statsPort),
  ("balance", .text s.balance.name),
  ("state", .text s.state.name),
  ("pid", .optional .number s.pid),
  ("backends", .ports s.backends),
  ("reloads", .number s.reloads),
  ("last_reload", .optional reloadJson s.lastReload)]

def poolJson (capacity : Nat) (s : Pool.Stats) : Json := .object [
  ("capacity", .number capacity),
  ("live", .number s.live),
  ("started", .number s.started),
  ("retired", .number s.retired),
  ("launch_failures", .number s.launchFailures)]

/-- What the application does. -/
def status (v : View) : Response := .ofJson 200 (.object [
  ("version", .text version),
  ("shutting_down", .bool v.shuttingDown),
  ("proxy", proxyJson v.proxy),
  ("pool", poolJson v.capacity v.pool),
  ("leased_ports", .ports v.leasedPorts)])

/-- The resources, by path. -/
def routes : List (String × (View → Response)) := [("/health", health), ("/api/status", status)]

/-- The path of a request target, without a query and a fragment. -/
def pathOf (target : String) : String :=
  String.ofList (target.toList.takeWhile fun c => c ≠ '?' && c ≠ '#')

/-- The answer without its value. -/
def Response.headOnly (r : Response) : Response := { r with body := none }

/-- The answer to a request. -/
def respond (v : View) (method target : String) : Response :=
  match routes.find? (·.1 = pathOf target) with
  | none => ⟨404, none, false, none⟩
  | some (_, resource) =>
    if method = "GET" then resource v
    else if method = "HEAD" then (resource v).headOnly
    else ⟨405, some "GET,HEAD", false, none⟩

end OnionPool.Api
