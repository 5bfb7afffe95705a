import OnionPool.Launch.Haproxy
import OnionPool.Process.Basic
import OnionPool.Proxy.Layout

/-!
# The state of the reverse proxy

The registry says which forwarders get traffic. Changes are taken over by reloads: a reload renders
the registry as it is when the reload starts, starts a new instance on that configuration, and
leaves the old one running for a while. Requests for reloads go through a place for one request;
debounced ones are dropped if it is taken, immediate ones stand in line for it.
-/

namespace OnionPool

namespace Proxy

/-- Whether a request waits for the end of a burst. -/
inductive Urgency where
  | debounced
  | immediate
  deriving DecidableEq

/-- A request for a reload, with a number of its own. -/
structure Request where
  ticket : Nat
  urgency : Urgency
  deriving DecidableEq

/-- Which start of an instance, counted from zero; an instance is named by its start. -/
abbrev InstanceId := Nat

/-- A reload from the moment it starts. -/
structure Reload where
  generation : Nat
  /-- The registry at that moment. -/
  snapshot : PortSet
  /-- The requests that it answers, the last one first. -/
  requests : List Request
  startedAt : Time

/-- What a replacement is needed for. -/
inductive Job where
  /-- The first instance, without backends. -/
  | opening
  | reload (r : Reload)

/-- How far a replacement has come. -/
inductive Stage where
  /-- The directory is about to be made. -/
  | preparing
  /-- The configuration is about to be written to a temporary file. -/
  | writing
  /-- The file is about to be moved into place. -/
  | renaming
  /-- The new instance is about to be spawned. -/
  | starting
  /-- It has to survive until the deadline. -/
  | settling (instance_ : InstanceId) (deadline : Time)
  deriving DecidableEq

/-- What the reload loop does. -/
inductive Loop where
  /-- It puts a new instance in place. -/
  | working (job : Job) (stage : Stage)
  | idle
  /-- It waits for the end of a burst, which began with a request at `openedAt` and whose latest
  request came at `latestAt`. -/
  | pending (openedAt latestAt : Time) (requests : List Request)
  | stopped
  /-- The first instance did not start. -/
  | failed (failure : Failure)

/-- The visible state of the loop. -/
inductive LoopState where
  | idle
  | pending
  | reloading
  deriving DecidableEq

/-- The outcome of a reload. -/
structure Event where
  generation : Nat
  backends : List Port
  /-- The instance that serves afterwards. -/
  serving : Option InstanceId
  /-- The instance that was to be replaced, if it came to a start. -/
  replaces : Option InstanceId
  failure : Option Failure
  finishedAt : Time

/-- The start of an instance. -/
structure Start where
  /-- The instance that it is to replace. -/
  previous : Option InstanceId
  /-- The configuration file at that moment. -/
  config : Option String
  /-- The number of the process, and the process, if it could be spawned. -/
  process : Option (Nat × Process)

/-- How far the retirement of a replaced instance has come. -/
inductive GraceStage where
  /-- It may finish its connections. -/
  | waiting
  /-- Its termination was asked for. -/
  | terminating (call : CallId)
  deriving DecidableEq

/-- The retirement of a replaced instance. -/
structure Grace where
  retired : InstanceId
  since : Time
  stage : GraceStage
  deriving DecidableEq

/-- A retirement after that of an instance has asked for its termination. -/
def Grace.dismiss (i : InstanceId) (call : CallId) (g : Grace) : Grace :=
  if g.retired = i then { g with stage := .terminating call } else g

/-- Which of the calls of the shutdown, in the order in which they came. -/
abbrev ClosingId := Nat

/-- How far a call of the shutdown has come. -/
inductive Closing where
  /-- It is about to collect the instances. The first call waits for the loop to end before; the
  others find that somebody waits already, and do not. -/
  | joining
  /-- It terminates the instances that it has collected, one after the other. -/
  | terminating (rest : List InstanceId) (current : Option (InstanceId × CallId))
  /-- It has returned. -/
  | closed
  deriving DecidableEq

/-- The directory of the proxy: the configuration file and the temporary one. -/
structure Folder where
  config : Option String := none
  temporary : Option String := none
  deriving DecidableEq

/-- The waiting times of the reload loop. -/
structure Timings where
  quiet : Time
  ceiling : Time
  grace : Time
  deriving DecidableEq

/-- What does not change while the proxy runs. -/
structure Plan where
  settings : ProxySettings
  timings : Timings
  dir : Path

namespace Plan

def configPath (p : Plan) : Path := Path.join p.dir "haproxy.cfg"

/-- Where an instance leaves its process number. -/
def pidPath (p : Plan) : Path := Path.join p.dir "haproxy.pid"

def render (p : Plan) (backends : PortSet) : String :=
  (Layout.ofSettings p.settings backends).render

/-- Where the configuration is written before it is moved into place. -/
def temporaryPath (p : Plan) : Path := Path.join p.dir "haproxy.cfg.tmp"

/-- The failure to put the configuration in place. -/
def writeFailure (p : Plan) (e : IoError) : Failure :=
  .render ("writing " ++ p.configPath ++ ": " ++ e.text)

end Plan

end Proxy

open Proxy in
/-- The reverse proxy with all its instances. -/
structure Proxy where
  plan : Plan
  /-- The forwarders that are to get traffic. -/
  registry : PortSet := .empty
  /-- The request in the place for one. -/
  slot : Option Request := none
  /-- The immediate requests in line for it. -/
  line : List Request := []
  /-- The requests that came to the place, the last one first. -/
  accepted : List Request := []
  /-- The number of the next request. -/
  tickets : Nat := 0
  loop : Loop := .working .opening .preparing
  /-- The reloads that were started, the last one first. -/
  reloads : List Reload := []
  /-- The reloads that are over, the last one first. -/
  events : List Event := []
  /-- All starts of instances, in order. -/
  starts : List Start := []
  /-- The instance that serves. -/
  current : Option InstanceId := none
  /-- The replaced instances that were not cleaned up yet. -/
  retiring : List InstanceId := []
  graces : List Grace := []
  folder : Option Folder := none
  stop : Bool := false
  /-- The calls of the shutdown, in the order in which they came. -/
  closings : List Closing := []

namespace Proxy

def state (p : Proxy) : LoopState :=
  match p.loop with
  | .working .opening _ | .idle | .stopped | .failed _ => .idle
  | .pending _ _ _ => .pending
  | .working (.reload _) _ => .reloading

def LoopState.name : LoopState → String
  | idle => "idle"
  | pending => "pending"
  | reloading => "reloading"

/-- Whether the loop takes no requests any more. -/
def isStopped (p : Proxy) : Bool :=
  match p.loop with
  | .stopped | .failed _ => true
  | .working _ _ | .idle | .pending _ _ _ => false

/-- Whether the first instance has taken over. -/
def isUp (p : Proxy) : Bool :=
  match p.loop with
  | .working .opening _ | .failed _ => false
  | .working (.reload _) _ | .idle | .pending _ _ _ | .stopped => true

def process? (p : Proxy) (i : InstanceId) : Option Process :=
  p.starts[i]?.bind fun s => s.process.map (·.2)

def pid? (p : Proxy) (i : InstanceId) : Option Nat :=
  p.starts[i]?.bind fun s => s.process.map (·.1)

/-- The number of the process that serves. -/
def servingPid (p : Proxy) : Option Nat := p.current.bind p.pid?

/-- The instance that an instance was started to replace. -/
def previous? (p : Proxy) (i : InstanceId) : Option InstanceId := p.starts[i]?.bind (·.previous)

/-- The number of reloads that were started. -/
def generation (p : Proxy) : Nat := p.reloads.length

/-- The instance whose settle window is not over. -/
def Loop.settling? : Loop → Option InstanceId
  | .working _ (.settling i _) => some i
  | .working _ .preparing | .working _ .writing | .working _ .renaming
  | .working _ .starting => none
  | .idle | .pending _ _ _ | .stopped | .failed _ => none

/-- Whether an instance is on its way to serve. -/
def Loop.isSettling (i : InstanceId) (l : Loop) : Bool := l.settling? = some i

/-- The instance that the one in its settle window is to replace. The loop holds both until the
verdict is found. -/
def replaced? (p : Proxy) : Option InstanceId := p.loop.settling?.bind p.previous?

/-- Whether a call of the shutdown still deals with an instance. -/
def Closing.holds (i : InstanceId) : Closing → Bool
  | .terminating rest current => rest.contains i || current.any (·.1 = i)
  | .joining | .closed => false

/-- Whether somebody holds the process of an instance. -/
def holds (p : Proxy) (i : InstanceId) : Bool :=
  p.loop.isSettling i || p.replaced? = some i || p.current = some i || p.retiring.contains i ||
    p.graces.any (·.retired = i) || p.closings.any (·.holds i)

/-- Whether no call of the shutdown is under way. -/
def isClosed (p : Proxy) : Bool := p.closings.all (· = .closed)

end Proxy

end OnionPool
