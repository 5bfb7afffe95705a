import OnionPool.Api.Respond
import OnionPool.Pool.Step
import OnionPool.Rehearsal.Proxy
import OnionPool.Rehearsal.Site

/-!
# Rehearsing the pool

The whole pool with its reverse proxy, with stand-ins for all programs. Pairs are
admitted first, then every task goes on until it has to wait, then what a task waits for happens,
in the order in which the tasks were admitted.
-/

namespace OnionPool.PoolRehearsal

/-- What is rehearsed. -/
structure Scenario where
  plan : Pool.Plan
  range : PortRange
  script : SiteScript
  proxyPlan : Proxy.Plan
  proxyScript : ProxyRehearsal.Script

/-- What a task does at once. -/
def promptTurns (t : Pool.Task) : List Pool.TaskAction :=
  match t.activity with
  | .entering | .leasing _ | .started _ | .leaving _ | .returning => [.proceed]
  | .failing => [.pause 0]
  | .pausing _ => [.proceed]
  | .starting _ | .serving _ | .discarding _ | .tearing _ | .gone => []

/-- What a task could do after it has waited for something else. -/
def wakeTurns (script : SiteScript) (site : Site) (t : Pool.Task) : List Pool.TaskAction :=
  match t.activity with
  | .starting s => (script.startupTurns site s).map .startup ++ [.proceed]
  | .serving _ => Pair.reasons.map .retire
  | .pausing _ => [.quit]
  | .discarding _ | .tearing _ => [.proceed]
  | .entering | .leasing _ | .started _ | .leaving _ | .returning | .failing | .gone => []

/-- What could happen, in the order in which it is tried. -/
def turns (s : Scenario) (p : Pool) : List Pool.Action :=
  let tasks := p.tasks.zipIdx
  [.begin, .close, .admitPair, .finish] ++
    tasks.flatMap (fun (t, i) => (promptTurns t).map (.task i)) ++
    (s.script.workerTurns p.site).map (fun (w, a) => .worker w a) ++
    (ProxyRehearsal.turns s.proxyScript p.proxy).map .proxy ++
    tasks.flatMap fun (t, i) => (wakeTurns s.script p.site t).map (.task i)

def rehearsal (s : Scenario) : Rehearsal Pool Pool.Action := ⟨Pool.machine, turns s⟩

/-- The pool from the start of its reverse proxy until it has begun, or the proxy has failed. -/
def start (s : Scenario) : Time × Pool :=
  let r := rehearsal s
  let p := r.settle 0 {
    plan := s.plan
    proxy := { plan := s.proxyPlan }
    site := { ports := .new s.range } }
  r.advanceUntil (ProxyRehearsal.isOpened ·.proxy) (ProxyRehearsal.patience 0 p.proxy) (0, p)

/-- What is done from outside. -/
inductive Step where
  | advance (ticks : Nat)
  /-- The latest process of a program at a port ends by itself. -/
  | exit (seat : Seat) (status : ExitStatus)
  | reloadNow
  | http (method target : String)
  | shutdown
  | proxyShutdown

/-- What comes of it. -/
inductive Answer where
  | nothing
  | flag (b : Bool)
  | response (r : Api.Response)

/-- What the status interface sees. -/
def view (p : Pool) : Api.View where
  shuttingDown := p.stop.raised
  proxy := p.proxy.status
  capacity := p.plan.size
  pool := p.stats
  leasedPorts := p.site.ports.inUse

def hasReturned (p : Pool) : Bool := p.runner = .returned

/-- The pool after a step from outside, and what comes of it. -/
def perform (s : Scenario) (x : Time × Pool) (step : Step) : Answer × (Time × Pool) :=
  let r := rehearsal s
  let (now, p) := x
  match step with
  | .advance ticks => (.nothing, r.advance ticks x)
  | .exit seat status =>
    match SiteScript.running? p.site seat with
    | some w => (.flag true, now, r.act now p (.worker w (.finish (some status))))
    | none => (.flag false, x)
  | .reloadNow => (.nothing, now, r.act now p (.proxy .reloadNow))
  | .http method target => (.response (Api.respond (view p) method target), x)
  | .shutdown =>
    (.nothing, r.advanceUntil hasReturned Process.drainGrace (now, r.act now p .raise))
  | .proxyShutdown =>
    let patience := ProxyRehearsal.patience now p.proxy
    (.nothing, r.advanceUntil (·.proxy.isClosed) patience
      (now, r.act now p (.proxy .shutdown)))

/-- What happened between two moments, each kind in an order of its own. -/
structure Report where
  /-- The preparations for launch: time, program and port. -/
  launches : List (Time × String × Port)
  /-- The pairs that stopped serving: both ports and the reason. -/
  stopped : List (String × String × String)
  failures : List String
  /-- The moves of pairs, each with the number of its repetitions. -/
  moves : List (String × Nat)

/-- The items that a list has in front of an older one. -/
def since {α : Type} (before after : List α) : List α := after.take (after.length - before.length)

/-- The items in order. -/
def sorted {α : Type} (le : α → α → Bool) (l : List α) : List α := l.mergeSort le

/-- Whether a text does not come after another one. -/
def textLe (a b : String) : Bool := !(b < a)

/-- Whether a launch does not come after another one. -/
def launchLe (a b : Time × String × Port) : Bool :=
  a.1 < b.1 || a.1 = b.1 && (a.2.1 < b.2.1 || a.2.1 = b.2.1 && a.2.2 ≤ b.2.2)

/-- Whether a stopped pair does not come after another one. -/
def stoppedLe (a b : String × String × String) : Bool :=
  a.1 < b.1 || a.1 = b.1 && (a.2.1 < b.2.1 || a.2.1 = b.2.1 && textLe a.2.2 b.2.2)

/-- The text of a failure. -/
def failure? : Pool.Note → Option String
  | .leaseFailed f => some ("failed to lease ports: " ++ f.message)
  | .startFailed f => some ("failed to start proxy: " ++ f.message)
  | .moved _ _ _ | .stuck _ _ | .stopping _ _ _ => none

/-- A pair that stopped serving. -/
def stopped? : Pool.Note → Option (String × String × String)
  | .stopping circuit forwarder reason => some (circuit.text, forwarder.text, reason.text)
  | .moved _ _ _ | .stuck _ _ | .leaseFailed _ | .startFailed _ => none

/-- A move of a pair. -/
def move? : Pool.Note → Option String
  | .moved source event target =>
    some (source.name ++ " " ++ event.name ++ " " ++ target.name)
  | .stuck _ _ | .leaseFailed _ | .startFailed _ | .stopping _ _ _ => none

/-- Each text with the number of its repetitions. -/
def counts (texts : List String) : List (String × Nat) :=
  texts.eraseDups.map fun t => (t, texts.count t)

/-- What happened between two moments. -/
def report (before after : Pool) : Report :=
  let notes := since before.notes after.notes
  let launches := (since before.site.launches after.site.launches).map fun (t, seat) =>
    (t, seat.role.service, seat.port)
  { launches := sorted launchLe launches
    stopped := sorted stoppedLe (notes.filterMap stopped?)
    failures := sorted textLe (notes.filterMap failure?)
    moves := counts (notes.filterMap move?) }

end OnionPool.PoolRehearsal
