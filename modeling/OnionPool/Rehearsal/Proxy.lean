import OnionPool.Proxy.Status
import OnionPool.Rehearsal.Kind
import OnionPool.Rehearsal.Play

/-!
# Rehearsing the reverse proxy

The reverse proxy with stand-ins for its instances: the n-th start gets the n-th stand-in. Nobody
else keeps the output of an instance open, so it ends with the instance.
-/

namespace OnionPool.ProxyRehearsal

/-- What the stand-ins do. -/
structure Script where
  /-- The stand-ins by start; the last one stands for all further starts. -/
  kinds : List Kind
  /-- Whether something else has the name of the directory. -/
  blocked : Bool := false

/-- The stand-in for a start. -/
def kind (script : Script) (i : Proxy.InstanceId) : Kind := Kind.pick script.kinds (.runs 0) i

/-- What comes of making the directory. -/
def prepareTurn (script : Script) : Proxy.Action :=
  .prepare (if script.blocked then some (.os .alreadyExists) else none)

/-- What could happen to the instances. -/
def instanceTurns (script : Script) (p : Proxy) : List Proxy.Action :=
  (List.range p.starts.length).flatMap fun i =>
    match p.process? i with
    | none => []
    | some process => ((kind script i).fate process ++ process.turns).map (.process i)

/-- The start of the next stand-in; its number is that of the start. -/
def startTurn (script : Script) (p : Proxy) : Proxy.Action :=
  let i := p.starts.length
  match kind script i with
  | .runs settle => .spawn (i + 1) settle
  | .ends _ => .spawn (i + 1) (kind script i).settle
  | .missing | .unprepared _ => .refuse (.os .notFound)

/-- What could happen, in the order in which it is tried. -/
def turns (script : Script) (p : Proxy) : List Proxy.Action :=
  instanceTurns script p ++
    [.judge, prepareTurn script, .write none, .rename none, startTurn script p, .halt, .receive,
      .expire] ++
    p.graces.flatMap (fun g => [.endGrace g.retired, .forget g.retired]) ++
    (List.range p.closings.length).flatMap fun c => [.join c, .killNext c, .killed c, .clear c]

def rehearsal (script : Script) : Rehearsal Proxy Proxy.Action := ⟨Proxy.machine, turns script⟩

/-- The instances that still run. -/
def alive (p : Proxy) : List Proxy.InstanceId :=
  (List.range p.starts.length).filter fun i => (p.process? i).any (·.isRunning)

/-- The longest time for which something that began can still go on. -/
def patience (now : Time) (p : Proxy) : Nat :=
  match p.loop with
  | .working _ (.settling _ deadline) => deadline - now + Process.drainGrace
  | _ => Process.drainGrace

/-- Whether the first instance has taken over, or failed. -/
def isOpened (p : Proxy) : Bool :=
  match p.loop with
  | .working .opening _ => false
  | _ => true

/-- The proxy from its start until its first instance has taken over, or failed. -/
def start (script : Script) (plan : Proxy.Plan) : Time × Proxy :=
  let r := rehearsal script
  let p := r.settle 0 { plan }
  r.advanceUntil isOpened (patience 0 p) (0, p)

/-- What is done from outside. -/
inductive Step where
  | register (port : Port)
  | deregister (port : Port)
  /-- Several registrations at one instant. -/
  | burst (ports : List Port)
  | request
  | reloadNow
  | insert (port : Port)
  | remove (port : Port)
  | advance (ticks : Nat)
  /-- An instance, counted from one, ends by itself. -/
  | exit (number : Nat) (status : ExitStatus)
  | alive
  | config
  | starts
  | removeDir
  | restoreDir
  | status
  | shutdown

/-- What comes of it. -/
inductive Answer where
  | nothing
  | flag (b : Bool)
  | instances (ids : List Proxy.InstanceId)
  | folder (f : Option Proxy.Folder)
  | starts (list : List (Option Proxy.InstanceId))
  | status (s : Proxy.Status)
  | closed (hasFolder : Bool) (alive : Nat)

/-- Whether an action can happen. -/
def can (now : Time) (p : Proxy) (a : Proxy.Action) : Bool := (p.step now a).isSome

/-- Several actions at one instant. -/
def actAll (now : Time) (p : Proxy) (actions : List Proxy.Action) : Proxy :=
  actions.foldl (fun p a => (p.step now a).getD p) p

/-- The end of an instance by itself, if it still runs. -/
def exit (script : Script) (now : Time) (p : Proxy) (number : Nat) (status : ExitStatus) :
    Bool × Proxy :=
  match (alive p).find? (· + 1 = number) with
  | some i => (true, (rehearsal script).act now p (.process i (.finish (some status))))
  | none => (false, p)

/-- The proxy after a step from outside, and what comes of it. -/
def perform (script : Script) (x : Time × Proxy) (step : Step) : Answer × (Time × Proxy) :=
  let r := rehearsal script
  let (now, p) := x
  let after (a : Proxy.Action) : Answer × (Time × Proxy) := (.nothing, now, r.act now p a)
  match step with
  | .register port => after (.register port)
  | .deregister port => after (.deregister port)
  | .burst ports => (.nothing, now, r.settle now (actAll now p (ports.map .register)))
  | .request => after .request
  | .reloadNow => after .reloadNow
  | .insert port => (.flag (!p.registry.contains port), now, r.act now p (.insert port))
  | .remove port => (.flag (p.registry.contains port), now, r.act now p (.remove port))
  | .advance ticks => (.nothing, r.advance ticks x)
  | .exit number status =>
    let (done, p) := exit script now p number status
    (.flag done, now, p)
  | .alive => (.instances (alive p), x)
  | .config => (.folder p.folder, x)
  | .starts => (.starts (p.starts.map (·.previous)), x)
  | .removeDir => after (.tamper none)
  | .restoreDir => after (.tamper (some (p.folder.getD {})))
  | .status => (.status p.status, x)
  | .shutdown =>
    let (now, p) := r.advanceUntil Proxy.isClosed (patience now p) (now, r.act now p .shutdown)
    (.closed p.folder.isSome (alive p).length, now, p)

end OnionPool.ProxyRehearsal
