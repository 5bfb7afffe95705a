import OnionPool.FileTree.Path
import OnionPool.System.OsError

/-!
# File trees

The entries below the root, each at a location, and the directory that relative paths start from.
A path is walked part by part through directories and symbolic links. The user may read and write
everything, so permission bits are kept but forbid nothing.
-/

namespace OnionPool

/-- A place in a file tree: the names on the way down from the root. -/
abbrev Location := List String

/-- What a file tree holds at a location. -/
inductive Entry where
  | file (mode : Nat) (text : String)
  | directory (mode : Nat)
  | link (target : Path)
  deriving DecidableEq

/-- The entries below the root, at most one of them at a location, and the working directory. -/
structure FileTree where
  entries : List (Location × Entry)
  workingDirectory : Location

namespace FileTree

/-- Permissions of a directory that its creator does not restrict. -/
def openMode : Nat := 0o755

/-- Permissions of a directory for its owner alone. -/
def privateMode : Nat := 0o700

/-- Permissions of a new file. -/
def fileMode : Nat := 0o644

def empty : FileTree := ⟨[], []⟩

/-- The entry at a location; the root is a directory. -/
def get? (t : FileTree) (place : Location) : Option Entry :=
  if place = [] then some (.directory openMode)
  else (t.entries.find? (·.1 = place)).map (·.2)

/-- The tree with an entry put at a location. -/
def put (t : FileTree) (place : Location) (e : Entry) : FileTree :=
  { t with entries := (place, e) :: t.entries.filter (·.1 ≠ place) }

/-- The tree without what is at a location and below it. -/
def prune (t : FileTree) (place : Location) : FileTree :=
  { t with entries := t.entries.filter fun (p, _) => !place.isPrefixOf p }

/-- What a path leads to. -/
inductive Target where
  /-- An entry. -/
  | found (place : Location) (e : Entry)
  /-- A name that its directory does not hold. -/
  | vacant (place : Location)

/-- The most symbolic links that a walk follows. -/
def maxLinks : Nat := 40

/-- The most bytes that a name has. -/
def maxName : Nat := 255

/-- The first number of bytes that is too many for a path. -/
def pathBound : Nat := 4096

/-- Whether no part is left that could change the result. -/
def isLast (rest : List String) : Bool := rest.all (· = "")

/-- How the last part of a path is taken. -/
inductive Ending where
  /-- A link is followed. -/
  | follow
  /-- A link is not followed. -/
  | stay
  /-- A link is followed, and what it leads to must have the name of a file: no slash stands behind
  it. -/
  | create
  deriving DecidableEq

/-- The walk from a location along the parts of a path. A link is followed, unless it is the last
part and the ending says otherwise. -/
def walk (t : FileTree) (ending : Ending) (links : Nat) (place : Location) :
    (parts : List String) → Except OsError Target
  | [] =>
    match t.get? place with
    | some e => .ok (.found place e)
    | none => .error .notFound
  | part :: rest =>
    match t.get? place with
    | some (.directory _) =>
      if part = "" ∨ part = "." then walk t ending links place rest
      else if part = ".." then walk t ending links place.dropLast rest
      else if ending = .create ∧ isLast rest ∧ rest ≠ [] then .error .isDirectory
      else if maxName < part.utf8ByteSize then .error .nameTooLong
      else match t.get? (place ++ [part]) with
        | none => if isLast rest then .ok (.vacant (place ++ [part])) else .error .notFound
        | some (.link target) =>
          if isLast rest ∧ ending = .stay then .ok (.found (place ++ [part]) (.link target))
          else match links with
            | 0 => .error .tooManyLinks
            | links + 1 =>
              let start := if Path.isAbsolute target then [] else place
              walk t ending links start (Path.parts target ++ rest)
        | some _ => walk t ending links (place ++ [part]) rest
    | some _ => .error .notDirectory
    | none => .error .notFound
termination_by parts => (links, parts.length)

/-- The refusal of a path with a NUL, which no file has in its name. -/
def nulInPath : IoError := .custom "file name contained an unexpected NUL byte"

/-- What the parts of a path lead to, from the root or the working directory. -/
def resolveParts (t : FileTree) (ending : Ending) (p : Path) (parts : List String) :
    Except IoError Target :=
  if p.toList.contains (Char.ofNat 0) then .error nulInPath
  else if pathBound ≤ p.utf8ByteSize then .error (.os .nameTooLong)
  else if p = "" then .error (.os .notFound)
  else
    let start := if Path.isAbsolute p then [] else t.workingDirectory
    (walk t ending maxLinks start parts).mapError .os

/-- What a path leads to. -/
def resolve (t : FileTree) (ending : Ending) (p : Path) : Except IoError Target :=
  t.resolveParts ending p (Path.parts p)

/-- What has the name that a path ends in: slashes behind the name mean nothing, and a link is not
followed. -/
def resolveName (t : FileTree) (p : Path) : Except IoError Target :=
  t.resolveParts .stay p (Path.withoutFinalSlashes (Path.parts p))

/-- The entry that a path leads to, all links followed. -/
def lookup (t : FileTree) (p : Path) : Except IoError Entry := do
  match ← t.resolve .follow p with
  | .found _ e => pure e
  | .vacant _ => throw (.os .notFound)

def isDirectory (t : FileTree) (p : Path) : Bool :=
  match t.lookup p with
  | .ok (.directory _) => true
  | _ => false

def isExecutable (t : FileTree) (p : Path) : Bool :=
  match t.lookup p with
  | .ok (.file mode _) => mode &&& 0o111 != 0
  | _ => false

@[simp] theorem get?_put_self {t : FileTree} {place : Location} {e : Entry} (h : place ≠ []) :
    (t.put place e).get? place = some e := by
  simp [get?, put, h]

/-- Putting an entry somewhere leaves every other location as it is. -/
theorem get?_put_of_ne {t : FileTree} {place other : Location} {e : Entry} (h : other ≠ place) :
    (t.put place e).get? other = t.get? other := by
  unfold get? put
  split
  · rfl
  · have h' : place ≠ other := Ne.symm h
    simp only [List.find?_cons, decide_eq_false h']
    congr 1
    induction t.entries with
    | nil => rfl
    | cons x xs ih =>
      by_cases hx : x.1 = place
      · have : x.1 ≠ other := fun h'' => h (h''.symm.trans hx)
        simpa [List.filter_cons, hx, h'] using ih
      · by_cases ho : x.1 = other
        · simp [ho, h]
        · simpa [List.filter_cons, hx, ho] using ih

end FileTree

end OnionPool
