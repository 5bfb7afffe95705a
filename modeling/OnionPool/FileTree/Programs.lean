import OnionPool.Failure
import OnionPool.FileTree.Basic

/-!
# Finding programs

A program is named by a path if its name has a slash, and else by its place in the first directory
of the search path that has an executable file of that name.
-/

namespace OnionPool.Programs

/-- The directories of a search path; an empty one is the working directory. -/
def directories (searchPath : String) : List Path :=
  (searchPath.toList.splitOn ':').map String.ofList

/-- Where a name would be in the directories of a search path, in order. -/
def candidates (searchPath : String) (name : String) : List Path :=
  (directories searchPath).map (Path.join · name)

/-- Whether a name is a path. -/
def isPath (name : String) : Bool := name.toList.contains '/'

/-- The path of a program, if it can be found. -/
def find? (t : FileTree) (searchPath : Option String) (name : String) : Option Path :=
  if name = "" then none
  else if isPath name then if t.isExecutable name then some name else none
  else (searchPath.map (candidates · name)).getD [] |>.find? t.isExecutable

/-- The paths of all programs, or the first that cannot be found. -/
def findAll (t : FileTree) (searchPath : Option String) (names : List String) :
    Except Failure (List Path) :=
  names.mapM fun name =>
    match find? t searchPath name with
    | some p => .ok p
    | none => .error (.missingProgram name)

/-- Why a file cannot be executed, if it cannot. A file that could be is no program. -/
def executionFault (t : FileTree) (p : Path) : IoError :=
  match t.lookup p with
  | .error e => e
  | .ok (.file mode _) => if mode &&& 0o111 = 0 then .os .denied else .os .noProgram
  | .ok _ => .os .denied

/-- Whether the search for a program goes on after a fault. -/
def isPassed (e : IoError) : Bool :=
  e = .os .denied || e = .os .notFound || e = .os .notDirectory

/-- Why a program that nobody put there does not start. A search passes over directories without
it, and reports a file that may not be executed only if there is nothing else to report. -/
def startFault (t : FileTree) (searchPath : String) (name : String) : IoError :=
  if name.toList.contains (Char.ofNat 0) then .custom "nul byte found in provided data"
  else if name = "" then .os .notFound
  else if isPath name then executionFault t name
  else
    let faults := (candidates searchPath name).map (executionFault t)
    match faults.find? (!isPassed ·) with
    | some e => e
    | none => if faults.contains (.os .denied) then .os .denied else .os .notFound

end OnionPool.Programs
