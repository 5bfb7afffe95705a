import OnionPool.Pair.Startup
import OnionPool.Rehearsal.Kind

/-!
# Stand-ins for the programs of pairs

Which stand-in is launched depends on the program, its port, and how often it was launched there
before. The directory of a program is made before its launch; it cannot be made where a file is in
the way.
-/

namespace OnionPool

/-- The stand-ins of one program, by port, with those for all other ports. -/
structure Cast where
  byPort : List (Port × List Kind)
  others : List Kind

/-- The stand-ins of both programs, and the names that are taken by files. -/
structure SiteScript where
  circuits : Cast
  forwarders : Cast
  blocked : List String
  /-- The stand-in where no other is given. -/
  default : Kind

namespace SiteScript

/-- The stand-ins for a program at a port. -/
def kinds (script : SiteScript) (seat : Seat) : List Kind :=
  let cast :=
    match seat.role with
    | .circuit => script.circuits
    | .forwarder => script.forwarders
  ((cast.byPort.find? (·.1 = seat.port)).map (·.2)).getD cast.others

/-- How often a program was prepared for launch at a port. -/
def launches (site : Site) (seat : Seat) : Nat := site.launches.countP (·.2 = seat)

/-- The stand-in for a launch, counted from zero. -/
def kind (script : SiteScript) (seat : Seat) (n : Nat) : Kind :=
  Kind.pick (script.kinds seat) script.default n

/-- The stand-in that was launched last. -/
def lastKind (script : SiteScript) (site : Site) (seat : Seat) : Kind :=
  script.kind seat (launches site seat - 1)

/-- What could happen to the processes of pairs. -/
def workerTurns (script : SiteScript) (site : Site) : List (WorkerId × Process.Action) :=
  site.workers.zipIdx.flatMap fun (worker, w) =>
    if worker.process.isOver then []
    else
      ((script.lastKind site worker.seat).fate worker.process ++ worker.process.turns).map (w, ·)

/-- The preparation of the next program. -/
def prepareTurn (script : SiteScript) (site : Site) (seat : Seat) : Startup.Action :=
  if script.blocked.contains seat.folder then .reject none (.io (.os .alreadyExists))
  else
    match script.kind seat (launches site seat) with
    | .unprepared reason => .reject (some []) (.internal reason)
    | .runs _ | .ends _ | .missing => .prepare []

/-- The launch of the next program. -/
def spawnTurn (script : SiteScript) (site : Site) (seat : Seat) : Startup.Action :=
  match script.lastKind site seat with
  | .missing | .unprepared _ => .refuse (.os .notFound)
  | .runs settle => .spawn settle
  | .ends status => .spawn (Kind.ends status).settle

/-- What could happen to the start of a pair, in the order in which it is tried. -/
def startupTurns (script : SiteScript) (site : Site) (s : Startup) : List Startup.Action :=
  match s.stage with
  | .preparing circuit => [script.prepareTurn site (s.seat circuit)]
  | .spawning circuit => [script.spawnTurn site (s.seat circuit)]
  | .settling _ _ _ => [.proceed, .interrupt]
  | .undoing _ _ => [.proceed]
  | .failed _ | .ready _ _ => []

/-- The latest process of a program at a port, if it runs. -/
def running? (site : Site) (seat : Seat) : Option WorkerId :=
  match (site.workers.zipIdx.filter fun (worker, _) => worker.seat = seat).getLast? with
  | some (worker, w) => if worker.process.isRunning then some w else none
  | none => none

/-- The names of the directories that are there, in order. -/
def folderNames (site : Site) : List String :=
  (site.folders.map (·.1.folder)).mergeSort fun a b => !(b < a)

end SiteScript

end OnionPool
