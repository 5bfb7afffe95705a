import OnionPool.FileTree.Basic

/-!
# Editing a file tree

Edits are operations that may fail; what an edit did before it failed stays done. Making a
directory with all its parents, writing a file, renaming it, and removing a directory with all that
is in it.
-/

namespace OnionPool

/-- An operation on a file tree that may fail half way. -/
abbrev Edit (α : Type) := ExceptT IoError (StateM FileTree) α

namespace Edit

/-- The result of an edit and the tree that it leaves. -/
def on {α : Type} (x : Edit α) (t : FileTree) : Except IoError α × FileTree :=
  (ExceptT.run x).run t

/-- A question to the tree as it is. -/
def ask {α : Type} (question : FileTree → Except IoError α) : Edit α := do
  let t ← get
  match question t with
  | .ok a => pure a
  | .error e => throw e

/-- What a path leads to. -/
def resolve (ending : FileTree.Ending) (p : Path) : Edit FileTree.Target :=
  ask (·.resolve ending p)

/-- A new directory; its parent must be there. Slashes at the end of the path mean nothing, even
where something else has the name. -/
def makeDirectory (mode : Nat) (p : Path) : Edit Unit := do
  match ← ask (·.resolveName p) with
  | .vacant place => modify (·.put place (.directory mode))
  | .found _ _ => throw (.os .alreadyExists)

/-- After a failed attempt to make a directory: no failure if it is there. -/
def unlessDirectory (p : Path) (e : IoError) : Edit Unit := do
  let t ← get
  if t.isDirectory p then pure () else throw e

/-- A directory with all the parents that it lacks. Each of them gets the same permissions; those
that are there keep theirs. `fuel` bounds the number of parents. -/
def ensureDirectoryWithin : (fuel : Nat) → (mode : Nat) → Path → Edit Unit
  | 0, _, _ => throw (.os .notFound)
  | fuel + 1, mode, p => do
    if p = "" then return
    let t ← get
    match (makeDirectory mode p).on t with
    | (.ok _, made) => set made
    | (.error e, _) =>
      if e = .os .notFound then
        match Path.parent? p with
        | none => throw e
        | some parent =>
          ensureDirectoryWithin fuel mode parent
          let t ← get
          match (makeDirectory mode p).on t with
          | (.ok _, made) => set made
          | (.error e, _) => unlessDirectory p e
      else unlessDirectory p e

/-- A directory with all the parents that it lacks: a parent is shorter than its child, so the
length of the path bounds their number. -/
def ensureDirectory (mode : Nat) (p : Path) : Edit Unit :=
  ensureDirectoryWithin (p.length + 1) mode p

/-- A file with the given text; one that is there keeps its permissions. -/
def writeFile (p : Path) (text : String) : Edit Unit := do
  match ← resolve .create p with
  | .found place (.file mode _) => modify (·.put place (.file mode text))
  | .found _ _ => throw (.os .isDirectory)
  | .vacant place => modify (·.put place (.file FileTree.fileMode text))

/-- A file under a new name; a file that had the name is gone. -/
def renameFile (source target : Path) : Edit Unit := do
  match ← resolve .stay source with
  | .vacant _ => throw (.os .notFound)
  | .found place e =>
    match ← resolve .stay target with
    | .found _ (.directory _) => throw (.os .isDirectory)
    | .found new _ | .vacant new => modify fun t => (t.prune place).put new e

/-- A directory removed with all that is in it; of a link, the link itself. -/
def removeDirectory (p : Path) : Edit Unit := do
  match ← resolve .stay p with
  | .vacant _ => throw (.os .notFound)
  | .found place (.directory _) | .found place (.link _) => modify (·.prune place)
  | .found _ (.file _ _) => throw (.os .notDirectory)

end Edit

end OnionPool
