import OnionPool.Pair.Life
import OnionPool.Rehearsal.Play
import OnionPool.Rehearsal.Site

/-!
# Rehearsing a pair

One pair on the first two ports of a range, with stand-ins for its programs, from its start to its
end; meanwhile processes may end and the signal to stop may be given at set times.
-/

namespace OnionPool.PairRehearsal

/-- What is done from outside. -/
inductive Event where
  | shutdown
  /-- Nobody is left who could give the signal to stop. -/
  | desert
  /-- A process ends by itself. -/
  | exit (seat : Seat) (status : ExitStatus)

/-- What is rehearsed. -/
structure Scenario where
  range : PortRange
  script : SiteScript
  lifetime : Time
  /-- What is done from outside, and when. -/
  events : List (Time × Event)

/-- What is heard of. -/
inductive Report where
  | milestone (m : PairLife.Milestone)
  | noSuchProcess

/-- What could happen, in the order in which it is tried. -/
def turns (script : SiteScript) (l : PairLife) : List PairLife.Action :=
  (script.workerTurns l.site).map (fun (w, a) => .worker w a) ++
    match l.stage with
    | .starting s => (script.startupTurns l.site s).map .startup ++ [.conclude]
    | .serving _ _ => Pair.reasons.map .retire
    | .leaving _ _ => [.chore]
    | .tornDown | .failed _ => []

def rehearsal (script : SiteScript) : Rehearsal PairLife PairLife.Action :=
  ⟨PairLife.machine, turns script⟩

/-- A pair that leases its ports, and is about to start. -/
def initial (s : Scenario) : Option PairLife := do
  let ports := PortAllocator.new s.range
  let (circuit, ports) := ports.lease
  let (forwarder, ports) := ports.lease
  some {
    stage := .starting ⟨← circuit, ← forwarder, .preparing none⟩
    site := { ports }
    lifetime := s.lifetime }

def isOver (l : PairLife) : Bool :=
  match l.stage with
  | .tornDown | .failed _ => true
  | .starting _ | .serving _ _ | .leaving _ _ => false

/-- What is heard of between two moments. -/
def heard (before after : PairLife) : List (Time × Report) :=
  ((after.journal.take (after.journal.length - before.journal.length)).map fun (t, m) =>
    (t, .milestone m)).reverse

/-- The pair after something is done from outside, and what is heard of. -/
def perform (script : SiteScript) (now : Time) (l : PairLife) (e : Event) :
    PairLife × List (Time × Report) :=
  let r := rehearsal script
  let after (a : PairLife.Action) : PairLife × List (Time × Report) :=
    let l' := r.act now l a
    (l', heard l l')
  match e with
  | .shutdown => after .raise
  | .desert => after .desert
  | .exit seat status =>
    match SiteScript.running? l.site seat with
    | some w => after (.worker w (.finish (some status)))
    | none => (l, [(now, .noSuchProcess)])

/-- What is done from outside at one moment, as long as the pair lives. -/
def performAll (script : SiteScript) (now : Time) :
    List Event → PairLife → PairLife × List (Time × Report)
  | [], l => (l, [])
  | e :: rest, l =>
    if isOver l then (l, [])
    else
      let (l, reports) := perform script now l e
      let (l, more) := performAll script now rest l
      (l, reports ++ more)

/-- The life of a pair from a moment on, for some milliseconds at most. -/
def play (s : Scenario) : (ticks : Nat) → Time → PairLife → PairLife × List (Time × Report)
  | 0, _, l => (l, [])
  | ticks + 1, now, l =>
    let settled := (rehearsal s.script).settle now l
    let due := (s.events.filter (·.1 = now)).map (·.2)
    let (after, reports) := performAll s.script now due settled
    let (last, more) := if isOver after then (after, []) else play s ticks (now + 1) after
    (last, heard l settled ++ reports ++ more)

/-- The longest settle window of some stand-ins. -/
def longest (c : Cast) : Nat :=
  ((c.others ++ c.byPort.flatMap (·.2)).map (·.settle)).foldl max 1

/-- More milliseconds than a pair lives. -/
def patience (s : Scenario) : Nat :=
  longest s.script.circuits + longest s.script.forwarders + s.lifetime + 4 * Process.drainGrace

/-- The whole life of a pair, and what is heard of it. -/
def run (s : Scenario) : Option (PairLife × List (Time × Report)) :=
  (initial s).map (play s (patience s) 0)

end OnionPool.PairRehearsal
