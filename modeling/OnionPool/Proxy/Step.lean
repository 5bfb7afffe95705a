import OnionPool.Proxy.State

/-!
# What happens to the reverse proxy

The actions of the reverse proxy and its surroundings. Everything between two moments at which the
clock stands still happens in single actions, in any order, so that what holds after every run of
them holds however they interleave.
-/

namespace OnionPool.Proxy

/-- What can happen to the reverse proxy. -/
inductive Action where
  /-- A forwarder is to get traffic. -/
  | register (port : Port)
  /-- A forwarder is to get no more traffic. -/
  | deregister (port : Port)
  /-- A forwarder is put into the registry, and nothing is requested. -/
  | insert (port : Port)
  /-- A forwarder is taken out of the registry, and nothing is requested. -/
  | remove (port : Port)
  /-- A reload is requested that may wait. -/
  | request
  | reloadNow
  | shutdown
  /-- Somebody else changes the directory. -/
  | tamper (folder : Option Folder)
  /-- The loop takes the request from its place. -/
  | receive
  /-- The loop finds that the burst is over. -/
  | expire
  | halt
  /-- The directory is made, if it is not there, or that fails. -/
  | prepare (fault : Option IoError)
  /-- The configuration is written to the temporary file; or that fails, and some text is left in
  the file. -/
  | write (fault : Option (OsError × String))
  /-- The temporary file is moved into place, or that fails. -/
  | rename (fault : Option OsError)
  /-- An instance is spawned with a process number, and has to survive for some time. -/
  | spawn (pid : Nat) (settle : Time)
  | refuse (error : IoError)
  /-- The verdict on the new instance is found. -/
  | judge
  /-- The retirement of an instance asks for its termination. -/
  | endGrace (i : InstanceId)
  /-- The retirement of an instance is over. -/
  | forget (i : InstanceId)
  /-- A call of the shutdown collects the instances that are left. -/
  | join (c : ClosingId)
  /-- A call of the shutdown asks for the termination of its next instance. -/
  | killNext (c : ClosingId)
  /-- A call of the shutdown has terminated an instance. -/
  | killed (c : ClosingId)
  /-- A call of the shutdown removes the directory, and returns. -/
  | clear (c : ClosingId)
  /-- A call of the shutdown cannot remove the directory, some of which is left, and returns. -/
  | forgo (c : ClosingId) (left : Folder)
  | process (i : InstanceId) (a : Process.Action)

/-- Whether an action happens as soon as it can. -/
def Action.isUrgent : Action → Bool
  | register _ | deregister _ | insert _ | remove _ | request | reloadNow | shutdown
  | tamper _ => false
  | receive | expire | halt | prepare _ | write _ | rename _ | spawn _ _ | refuse _ | judge
  | endGrace _ | forget _ | join _ | killNext _ | killed _ | clear _ | forgo _ _ => true
  | process _ a => a.isUrgent

/-- A debounced request; it is dropped if the place is taken or nobody takes requests any more. -/
def request (p : Proxy) : Proxy :=
  if p.isStopped || p.slot.isSome then p
  else
    let r : Request := ⟨p.tickets, .debounced⟩
    { p with slot := some r, accepted := r :: p.accepted, tickets := p.tickets + 1 }

/-- An immediate request; it stands in line if the place is taken. -/
def reloadNow (p : Proxy) : Proxy :=
  if p.isStopped then p
  else
    let r : Request := ⟨p.tickets, .immediate⟩
    if p.slot.isSome then { p with line := p.line ++ [r], tickets := p.tickets + 1 }
    else { p with slot := some r, accepted := r :: p.accepted, tickets := p.tickets + 1 }

def insert (p : Proxy) (port : Port) : Proxy := { p with registry := p.registry.insert port }

def remove (p : Proxy) (port : Port) : Proxy := { p with registry := p.registry.erase port }

/-- A forwarder in the registry, and a request for a reload. -/
def register (p : Proxy) (port : Port) : Proxy := (p.insert port).request

/-- A forwarder out of the registry, and a request for a reload. -/
def deregister (p : Proxy) (port : Port) : Proxy := (p.remove port).request

/-- The place for a request after it was emptied: the first in line comes to it. -/
def refill (p : Proxy) : Proxy :=
  match p.line with
  | [] => { p with slot := none }
  | r :: rest => { p with slot := some r, line := rest, accepted := r :: p.accepted }

/-- A reload that answers some requests. -/
def begin (now : Time) (requests : List Request) (p : Proxy) : Proxy :=
  let r : Reload := ⟨p.generation + 1, p.registry, requests, now⟩
  { p with reloads := r :: p.reloads, loop := .working (.reload r) .writing }

/-- The loop takes the request from its place. An immediate one ends the burst. -/
def receive (now : Time) (p : Proxy) : Option Proxy :=
  match p.slot, p.loop with
  | some r, .idle =>
    match r.urgency with
    | .debounced => some { p.refill with loop := .pending now now [r] }
    | .immediate => some (p.refill.begin now [r])
  | some r, .pending openedAt _ rs =>
    match r.urgency with
    | .debounced => some { p.refill with loop := .pending openedAt now (r :: rs) }
    | .immediate => some (p.refill.begin now (r :: rs))
  | _, _ => none

/-- When a burst is over if no more requests come. -/
def deadline (t : Timings) (openedAt latestAt : Time) : Time :=
  min (latestAt + t.quiet) (openedAt + t.ceiling)

def expire (now : Time) (p : Proxy) : Option Proxy :=
  match p.loop with
  | .pending openedAt latestAt rs =>
    if deadline p.plan.timings openedAt latestAt ≤ now then some (p.begin now rs) else none
  | .working _ _ | .idle | .stopped | .failed _ => none

/-- The loop ends when it was told to, unless it puts an instance in place. The requests that it
did not take are lost, and nobody stands in line any more. -/
def halt (p : Proxy) : Option Proxy :=
  match p.loop with
  | .idle | .pending _ _ _ =>
    if p.stop then some { p with loop := .stopped, slot := none, line := [] } else none
  | .working _ _ | .stopped | .failed _ => none

/-- A job is over, and the loop goes on: a failure of the first instance is the end of it, the
outcome of a reload becomes an event. -/
def conclude (now : Time) (job : Job) (replaces : Option InstanceId) (failure : Option Failure)
    (p : Proxy) : Proxy :=
  match job with
  | .opening =>
    match failure with
    | none => { p with loop := .idle }
    | some f => { p with loop := .failed f, slot := none, line := [] }
  | .reload r =>
    -- After a success the new instance has taken over already, and is the one that serves.
    let e : Event := ⟨r.generation, r.snapshot.toList, p.current, replaces, failure, now⟩
    { p with loop := .idle, events := e :: p.events }

/-- The registry that a job puts into the configuration. -/
def Job.snapshot : Job → PortSet
  | opening => .empty
  | reload r => r.snapshot

/-- The failure of a job whose instance did not start. -/
def Job.startFailure (job : Job) (f : Failure) : Failure :=
  match job with
  | opening => f
  | reload _ => .handoff f.message

/-- The directory is made, and kept if it is there. -/
def prepare (now : Time) (fault : Option IoError) (p : Proxy) : Option Proxy :=
  match p.loop with
  | .working job .preparing =>
    match fault with
    | none => some { p with folder := some (p.folder.getD {}), loop := .working job .writing }
    | some e => some (p.conclude now job none (some (.io e)))
  | _ => none

/-- The configuration is written to the temporary file. -/
def write (now : Time) (fault : Option (OsError × String)) (p : Proxy) : Option Proxy :=
  match p.loop with
  | .working job .writing =>
    match p.folder with
    | none => some (p.conclude now job none (some (p.plan.writeFailure (.os .notFound))))
    | some folder =>
      match fault with
      | none =>
        let text := p.plan.render job.snapshot
        some { p with
          folder := some { folder with temporary := some text }
          loop := .working job .renaming }
      | some (e, left) =>
        let q := { p with folder := some { folder with temporary := some left } }
        some (q.conclude now job none (some (p.plan.writeFailure (.os e))))
  | _ => none

/-- The temporary file is moved into place. -/
def rename (now : Time) (fault : Option OsError) (p : Proxy) : Option Proxy :=
  match p.loop with
  | .working job .renaming =>
    match p.folder.bind (·.temporary), fault with
    | none, _ => some (p.conclude now job none (some (p.plan.writeFailure (.os .notFound))))
    | some _, some e => some (p.conclude now job none (some (p.plan.writeFailure (.os e))))
    | some text, none =>
      some { p with folder := some ⟨some text, none⟩, loop := .working job .starting }
  | _ => none

/-- The numbers of processes that were not reaped. -/
def usedPids (p : Proxy) : List Nat :=
  p.starts.filterMap fun s => s.process.bind fun (pid, process) =>
    if process.reaped? = none then some pid else none

/-- An instance is spawned. Its number is none of a process that was not reaped. -/
def spawn (now : Time) (pid : Nat) (settle : Time) (p : Proxy) : Option Proxy :=
  match p.loop with
  | .working job .starting =>
    -- The system gives out the number of a process again only after it was reaped.
    if p.usedPids.contains pid then none
    else
      let s : Start := ⟨p.current, p.folder.bind (·.config), some (pid, .fresh)⟩
      some { p with
        starts := p.starts ++ [s]
        loop := .working job (.settling p.starts.length (now + settle)) }
  | _ => none

/-- What cannot be launched is the program of the proxy, on its port. -/
def launchFailure (p : Proxy) (reason : String) : Failure :=
  .launch "haproxy" p.plan.settings.port reason

def refuse (now : Time) (error : IoError) (p : Proxy) : Option Proxy :=
  match p.loop with
  | .working job .starting =>
    let s : Start := ⟨p.current, p.folder.bind (·.config), none⟩
    let q := { p with starts := p.starts ++ [s] }
    some (q.conclude now job p.current (some (job.startFailure (p.launchFailure error.text))))
  | _ => none

/-- An instance takes over from the one that it was started to replace, and that one is retired. -/
def takeOver (now : Time) (i : InstanceId) (p : Proxy) : Proxy :=
  match p.previous? i with
  | none => { p with current := some i }
  | some old =>
    { p with
      current := some i
      retiring := p.retiring ++ [old]
      graces := p.graces ++ [⟨old, now, .waiting⟩] }

/-- The verdict on the new instance. -/
def judge (now : Time) (p : Proxy) : Option Proxy :=
  match p.loop with
  | .working job (.settling i deadline) =>
    match (p.process? i).bind (·.verdict? now deadline) with
    | some .settled => some ((p.takeOver now i).conclude now job (p.previous? i) none)
    | some (.failed outcome) =>
      let failure := job.startFailure (p.launchFailure outcome.text)
      some (p.conclude now job (p.previous? i) (some failure))
    | none => none
  | _ => none

/-- The process of an instance after some change. -/
def setProcess (p : Proxy) (i : InstanceId) (process : Process) : Proxy :=
  { p with starts := p.starts.modify i fun s =>
      { s with process := s.process.map fun (pid, _) => (pid, process) } }

/-- The termination of an instance asked for: the number of the call, and the proxy after it. -/
def terminate (p : Proxy) (i : InstanceId) : Option (CallId × Proxy) :=
  (p.process? i).map fun process => (process.nextCall, p.setProcess i process.terminate)

/-- Whether a call for the termination of an instance is over. -/
def isTerminated (p : Proxy) (i : InstanceId) (call : CallId) : Bool :=
  (p.process? i).any (·.hasReturned call)

/-- The retirement that concerns an instance. -/
def grace? (p : Proxy) (i : InstanceId) : Option Grace := p.graces.find? (·.retired = i)

/-- The retirement of an instance asks for its termination: when it is done with, or the grace is
over. -/
def endGrace (now : Time) (i : InstanceId) (p : Proxy) : Option Proxy := do
  let g ← p.grace? i
  let process ← p.process? i
  let (call, q) ← p.terminate i
  if g.stage = .waiting ∧ (process.exited?.isSome ∨ g.since + p.plan.timings.grace ≤ now) then
    some { q with graces := p.graces.map (·.dismiss i call) }
  else none

/-- The retirement of an instance is over when it is terminated. -/
def forget (i : InstanceId) (p : Proxy) : Option Proxy := do
  let g ← p.grace? i
  match g.stage with
  | .terminating call =>
    if p.isTerminated i call then
      some { p with
        graces := p.graces.filter (·.retired ≠ i)
        retiring := p.retiring.filter (· ≠ i) }
    else none
  | .waiting => none

/-- One more call of the shutdown, which tells the loop to stop. -/
def shutdown (p : Proxy) : Proxy :=
  { p with stop := true, closings := p.closings ++ [.joining] }

/-- Whether a call of the shutdown waits for the loop. Only the first one has a loop to wait for. -/
def awaitsLoop (p : Proxy) (c : ClosingId) : Bool := c = 0 && !p.isStopped

/-- A call of the shutdown collects the instances that are left: the first one when the loop has
ended, the others at once. -/
def join (c : ClosingId) (p : Proxy) : Option Proxy :=
  match p.closings[c]? with
  | some .joining =>
    if p.awaitsLoop c then none
    else
      some { p with
        closings := p.closings.set c (.terminating (p.retiring ++ p.current.toList) none)
        retiring := []
        current := none }
  | _ => none

/-- A call of the shutdown asks for the termination of its next instance. -/
def killNext (c : ClosingId) (p : Proxy) : Option Proxy :=
  match p.closings[c]? with
  | some (.terminating (i :: rest) none) =>
    match p.terminate i with
    | some (call, q) =>
      some { q with closings := p.closings.set c (.terminating rest (some (i, call))) }
    | none => some { p with closings := p.closings.set c (.terminating rest none) }
  | _ => none

/-- A call of the shutdown has terminated an instance. -/
def killed (c : ClosingId) (p : Proxy) : Option Proxy :=
  match p.closings[c]? with
  | some (.terminating rest (some (i, call))) =>
    if p.isTerminated i call then
      some { p with closings := p.closings.set c (.terminating rest none) }
    else none
  | _ => none

/-- A call of the shutdown removes the directory, and returns. -/
def clear (c : ClosingId) (p : Proxy) : Option Proxy :=
  match p.closings[c]? with
  | some (.terminating [] none) =>
    some { p with closings := p.closings.set c .closed, folder := none }
  | _ => none

/-- A call of the shutdown cannot remove the directory, and returns all the same. -/
def forgo (c : ClosingId) (left : Folder) (p : Proxy) : Option Proxy :=
  match p.closings[c]?, p.folder with
  | some (.terminating [] none), some _ =>
    some { p with closings := p.closings.set c .closed, folder := some left }
  | _, _ => none

/-- Something happens to the process of an instance; its termination is asked for elsewhere. -/
def processStep (now : Time) (i : InstanceId) (a : Process.Action) (p : Proxy) : Option Proxy :=
  match a with
  | .terminate => none
  | a => do
    let process ← p.process? i
    let process ← process.step (p.holds i) now a
    some (p.setProcess i process)

/-- A call from outside; there is nothing to call before the first instance has taken over. -/
def call (p : Proxy) (q : Option Proxy) : Option Proxy := if p.isUp then q else none

/-- What an action makes of the proxy, if it can happen. -/
def step (now : Time) (p : Proxy) : Action → Option Proxy
  -- Calls from outside, and other hands in the directory.
  | .register port => p.call (some (p.register port))
  | .deregister port => p.call (some (p.deregister port))
  | .insert port => p.call (some (p.insert port))
  | .remove port => p.call (some (p.remove port))
  | .request => p.call (some p.request)
  | .reloadNow => p.call (some p.reloadNow)
  | .shutdown => p.call (some p.shutdown)
  | .tamper folder => some { p with folder }
  -- The reload loop, and the job that it works on.
  | .receive => p.receive now
  | .expire => p.expire now
  | .halt => p.halt
  | .prepare fault => p.prepare now fault
  | .write fault => p.write now fault
  | .rename fault => p.rename now fault
  | .spawn pid settle => p.spawn now pid settle
  | .refuse error => p.refuse now error
  | .judge => p.judge now
  -- The retirements, each for itself.
  | .endGrace i => p.endGrace now i
  | .forget i => p.forget i
  -- The calls of the shutdown, each for itself.
  | .join c => p.join c
  | .killNext c => p.killNext c
  | .killed c => p.killed c
  | .clear c => p.clear c
  | .forgo c left => p.forgo c left
  | .process i a => p.processStep now i a

def machine : Machine Proxy Action := ⟨step, Action.isUrgent⟩

end OnionPool.Proxy
