import OnionPool.Text.Split

/-!
# Paths

A path is kept as it is written: joining two paths puts one slash between them where there is none,
and nothing is normalised. The parts of a path are the texts between its slashes.
-/

namespace OnionPool

/-- A path as it is written. -/
abbrev Path := String

namespace Path

/-- Whether the characters of a path begin at the root. -/
def startsAtRoot : List Char → Bool
  | '/' :: _ => true
  | _ => false

def isAbsolute (p : Path) : Bool := startsAtRoot p.toList

/-- The characters of a directory with one slash behind them; the working directory, whose path is
empty, has none. -/
def asParent (dir : List Char) : List Char :=
  match dir.getLast? with
  | none => []
  | some '/' => dir
  | some _ => dir ++ ['/']

/-- The path of something in a directory; an absolute path stands for itself. -/
def join (dir name : Path) : Path :=
  if isAbsolute name then name else String.ofList (asParent dir.toList) ++ name

/-- The texts between the slashes. -/
def parts (p : Path) : List String := (p.toList.splitOn '/').map String.ofList

/-- Parts without the empty ones at the end, which slashes at the end of a path leave there. -/
def withoutFinalSlashes (parts : List String) : List String :=
  (parts.reverse.dropWhile (· = "")).reverse

/-- Reversed characters without the slashes and the parts `.` that they begin with, unless nothing
stands behind such a part. -/
def dropIdle : List Char → List Char
  | '/' :: rest => dropIdle rest
  | '.' :: '/' :: rest => dropIdle rest
  | cs => cs

/-- Reversed characters without the last part. -/
def dropPart (cs : List Char) : List Char := cs.dropWhile (· ≠ '/')

theorem length_dropIdle_le (cs : List Char) : (dropIdle cs).length ≤ cs.length := by
  fun_induction dropIdle cs with
  | case1 rest ih => simp; omega
  | case2 rest ih => simp; omega
  | case3 => simp

theorem length_dropWhile_le (p : Char → Bool) (cs : List Char) :
    (cs.dropWhile p).length ≤ cs.length := by
  induction cs with
  | nil => simp
  | cons c cs ih =>
    by_cases h : p c = true
    · simp [h]; omega
    · simp [h]

/-- The characters of the directory that a path names its last part in: none for the root, and the
empty path, which is the working directory, for a single part. -/
def parentChars? (p : List Char) : Option (List Char) :=
  match dropIdle p.reverse with
  | [] => none
  | c :: rest =>
    let above := dropPart (c :: rest)
    let idle := dropIdle above
    if idle = [] ∧ above ≠ [] then some ['/'] else some idle.reverse

/-- The directory that a path names its last part in. -/
def parent? (p : Path) : Option Path := (parentChars? p.toList).map String.ofList

@[simp] theorem join_empty (name : Path) : join "" name = name := by
  unfold join
  split
  · rfl
  · simp [asParent]

end Path

end OnionPool
