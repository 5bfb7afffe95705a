import OnionPool.FileTree.Edit
import OnionPool.Proofs.TreeWalk

/-!
# What edits of a file tree do

Each edit is described by what it makes of a tree. What making a directory with all its parents does
is the most: it adds directories, all with the same permissions and all at places that the path or a
path above it leads to, and it touches nothing else, whether it succeeds or fails.

## Structure

- Single steps: the result of an edit and the tree after it, case by case.
- Parents: a parent is shorter than its child, so the bound on the number of parents is never met.
- Growth: `Grown` is what making a directory with its parents may do to a tree.
- Files: a file that was written is what its path leads to afterwards.
-/

namespace OnionPool

namespace Edit

/-! ## Single steps -/

section Steps

variable {α β : Type} {x : Edit α} {f : α → Edit β} {t : FileTree} {mode : Nat} {p : Path}
  {e : IoError}

theorem on_bind : (x >>= f).on t =
    match x.on t with
    | (.ok a, u) => (f a).on u
    | (.error e, u) => (.error e, u) := by
  show (match x.on t with | (r, u) => (ExceptT.bindCont f r : StateM FileTree _) u) = _
  rcases x.on t with ⟨_ | a, u⟩ <;> rfl

theorem on_ask (question : FileTree → Except IoError α) :
    (ask question).on t = (question t, t) := by
  have hget : (get : Edit FileTree).on t = (.ok t, t) := rfl
  unfold ask
  rw [on_bind, hget]
  dsimp only
  cases question t with
  | error e => rfl
  | ok a => rfl

/-- A directory is made at a place that is vacant. -/
theorem makeDirectory_on : (makeDirectory mode p).on t =
    match t.resolveName p with
    | .ok (.vacant place) => (.ok (), t.put place (.directory mode))
    | .ok (.found _ _) => (.error (.os .alreadyExists), t)
    | .error e => (.error e, t) := by
  unfold makeDirectory
  rw [on_bind, on_ask]
  cases t.resolveName p with
  | error e => rfl
  | ok y => cases y <;> rfl

theorem unlessDirectory_on : (unlessDirectory p e).on t =
    (if t.isDirectory p then .ok () else .error e, t) := by
  show (if t.isDirectory p then pure () else throw e : Edit Unit).on t = _
  split <;> rfl

/-- A file is written over, or created at a place that is vacant. -/
theorem writeFile_on {text : String} : (writeFile p text).on t =
    match t.resolve .create p with
    | .ok (.found place (.file mode _)) => (.ok (), t.put place (.file mode text))
    | .ok (.found _ _) => (.error (.os .isDirectory), t)
    | .ok (.vacant place) => (.ok (), t.put place (.file FileTree.fileMode text))
    | .error e => (.error e, t) := by
  unfold writeFile resolve
  rw [on_bind, on_ask]
  cases t.resolve .create p with
  | error e => rfl
  | ok y =>
    cases y with
    | vacant => rfl
    | found place e => cases e <;> rfl

/-- An attempt to make a directory, with something else to be done if it fails. -/
theorem on_attempt {otherwise : IoError → Edit Unit} :
    (do
      let t ← get
      match (makeDirectory mode p).on t with
      | (.ok _, made) => set made
      | (.error e, _) => otherwise e : Edit Unit).on t =
    match (makeDirectory mode p).on t with
    | (.ok _, u) => (.ok (), u)
    | (.error e, _) => (otherwise e).on t := by
  show (match (makeDirectory mode p).on t with
    | (.ok _, made) => set made
    | (.error e, _) => otherwise e : Edit Unit).on t = _
  rcases (makeDirectory mode p).on t with ⟨_ | _, u⟩ <;> rfl

/-- One attempt; if the parent is missing, it is made, and one more attempt follows. -/
theorem ensureDirectoryWithin_on {fuel : Nat} :
    (ensureDirectoryWithin (fuel + 1) mode p).on t =
      if p = "" then (.ok (), t)
      else match (makeDirectory mode p).on t with
      | (.ok _, u) => (.ok (), u)
      | (.error e, _) =>
        if e = .os .notFound then
          match Path.parent? p with
          | none => (.error e, t)
          | some parent =>
            match (ensureDirectoryWithin fuel mode parent).on t with
            | (.error e, u) => (.error e, u)
            | (.ok _, u) =>
              match (makeDirectory mode p).on u with
              | (.ok _, v) => (.ok (), v)
              | (.error e, _) => (unlessDirectory p e).on u
        else (unlessDirectory p e).on t := by
  rw [ensureDirectoryWithin]
  by_cases hp : p = ""
  · rw [if_pos hp, if_pos hp]
    rfl
  rw [if_neg hp, if_neg hp]
  -- The parent is only made when the first attempt says that it is missing.
  refine on_attempt.trans ?_
  rcases (makeDirectory mode p).on t with ⟨e | _, u⟩
  · by_cases he : e = .os .notFound
    · simp only [if_pos he]
      cases Path.parent? p with
      | none => rfl
      | some parent =>
        refine on_bind.trans ?_
        dsimp only
        rcases (ensureDirectoryWithin fuel mode parent).on t with ⟨_ | _, v⟩
        · rfl
        · exact on_attempt
    · simp only [if_neg he]
  · rfl

end Steps

end Edit

/-! ## Parents -/

namespace Path

theorem dropIdle_ne_slash {cs rest : List Char} : dropIdle cs ≠ '/' :: rest := by
  fun_induction dropIdle cs with
  | case1 _ ih => exact ih
  | case2 _ ih => exact ih
  | case3 cs hslash =>
    rintro rfl
    exact hslash rest rfl

/-- A parent is shorter than its child. -/
theorem length_lt_of_parent? {p q : Path} (h : parent? p = some q) : q.length < p.length := by
  obtain ⟨cs, hcs, rfl⟩ := Option.map_eq_some_iff.mp h
  rw [← String.length_toList, ← String.length_toList, String.toList_ofList]
  have hidle := length_dropIdle_le p.toList.reverse
  rw [List.length_reverse] at hidle
  unfold parentChars? at hcs
  cases hrest : dropIdle p.toList.reverse with
  | nil =>
    rw [hrest] at hcs
    cases hcs
  | cons c rest =>
    rw [hrest] at hcs hidle
    rw [List.length_cons] at hidle
    -- The last part has at least the character that stopped the search for idle ones.
    have hpart : dropPart (c :: rest) = dropPart rest := by
      refine List.dropWhile_cons_of_pos (decide_eq_true ?_)
      rintro rfl
      exact dropIdle_ne_slash hrest
    have habove : (dropPart (c :: rest)).length ≤ rest.length := by
      rw [hpart]
      exact length_dropWhile_le _ rest
    have hupper := length_dropIdle_le (dropPart (c :: rest))
    dsimp only at hcs
    split at hcs
    next hroot =>
      cases hcs
      have hpos := List.length_pos_iff.mpr hroot.2
      rw [List.length_singleton]
      omega
    next =>
      cases hcs
      rw [List.length_reverse]
      omega

end Path

namespace Edit

variable {t : FileTree} {mode : Nat} {p : Path}

/-- Any bound on the number of parents that is above the length of the path is as good as any
other. -/
theorem ensureDirectoryWithin_on_congr {fuel fuel' : Nat} (h : p.length < fuel)
    (h' : p.length < fuel') :
    (ensureDirectoryWithin fuel mode p).on t = (ensureDirectoryWithin fuel' mode p).on t := by
  induction fuel generalizing p t fuel' with
  | zero => exact absurd h (Nat.not_lt_zero _)
  | succ fuel ih =>
    cases fuel' with
    | zero => exact absurd h' (Nat.not_lt_zero _)
    | succ fuel' =>
      rw [ensureDirectoryWithin_on, ensureDirectoryWithin_on]
      cases hparent : Path.parent? p with
      | none => rfl
      | some parent =>
        have hshorter := Path.length_lt_of_parent? hparent
        have hsame : (ensureDirectoryWithin fuel mode parent).on t =
            (ensureDirectoryWithin fuel' mode parent).on t := ih (by omega) (by omega)
        simp only [hsame]

/-- A directory is made with all the parents that it lacks, as many as they are. -/
theorem ensureDirectory_on : (ensureDirectory mode p).on t =
    if p = "" then (.ok (), t)
    else match (makeDirectory mode p).on t with
    | (.ok _, u) => (.ok (), u)
    | (.error e, _) =>
      if e = .os .notFound then
        match Path.parent? p with
        | none => (.error e, t)
        | some parent =>
          match (ensureDirectory mode parent).on t with
          | (.error e, u) => (.error e, u)
          | (.ok _, u) =>
            match (makeDirectory mode p).on u with
            | (.ok _, v) => (.ok (), v)
            | (.error e, _) => (unlessDirectory p e).on u
      else (unlessDirectory p e).on t := by
  rw [ensureDirectory, ensureDirectoryWithin_on]
  cases hparent : Path.parent? p with
  | none => rfl
  | some parent =>
    have hsame : (ensureDirectoryWithin p.length mode parent).on t =
        (ensureDirectory mode parent).on t :=
      ensureDirectoryWithin_on_congr (Path.length_lt_of_parent? hparent) (Nat.lt_succ_self _)
    simp only [hsame]

end Edit

/-! ## Growth -/

/-- A path leads upwards to another: that is itself, or its parent, or a parent of that, and so
on. -/
inductive Path.Above : Path → Path → Prop
  | self (p : Path) : Above p p
  | parent {p parent above : Path} (hparent : Path.parent? p = some parent)
      (habove : Above parent above) : Above p above

namespace FileTree

variable {t u v : FileTree} {mode : Nat} {p parent : Path} {place : Location}

/-- What making a directory with its parents may do to a tree: at some places where nothing was
there are directories with given permissions, and the path or a path above it leads to each of
them. -/
structure Grown (mode : Nat) (p : Path) (t u : FileTree) : Prop where
  workingDirectory : u.workingDirectory = t.workingDirectory
  places : ∀ place, u.get? place = t.get? place ∨
    t.get? place = none ∧ u.get? place = some (.directory mode) ∧
      ∃ above, p.Above above ∧ u.LeadsTo above place (.directory mode)

theorem Grown.refl (mode : Nat) (p : Path) (t : FileTree) : Grown mode p t t :=
  ⟨rfl, fun _ => .inl rfl⟩

/-- A tree that has grown keeps what it had. -/
theorem Grown.keeps (h : Grown mode p t u) : t.Keeps u where
  entries place e hentry := by
    rcases h.places place with hsame | ⟨hnone, -⟩
    · rw [hsame, hentry]
    · rw [hentry] at hnone
      cases hnone
  workingDirectory := h.workingDirectory

/-- A directory has the given permissions if it is new, or had them before. -/
theorem Grown.mode_eq_iff {m : Nat} (h : Grown mode p t u)
    (hdir : u.get? place = some (.directory m)) :
    m = mode ↔ t.get? place = none ∨ t.get? place = some (.directory mode) := by
  constructor
  · rintro rfl
    rcases h.places place with hsame | ⟨hnone, -⟩
    · exact .inr (hsame ▸ hdir)
    · exact .inl hnone
  · rintro (hnone | hbefore)
    · rcases h.places place with hsame | ⟨-, hnew, -⟩
      · rw [hsame, hnone] at hdir
        cases hdir
      · rw [hdir] at hnew
        cases hnew
        rfl
    · have hkept := h.keeps.entries _ _ hbefore
      rw [hdir] at hkept
      cases hkept
      rfl

theorem Grown.trans (h : Grown mode p t u) (h' : Grown mode p u v) : Grown mode p t v where
  workingDirectory := h'.workingDirectory.trans h.workingDirectory
  places place := by
    rcases h.places place with hsame | ⟨hnone, hdir, above, habove, hleads⟩
    · rw [← hsame]
      exact h'.places place
    · refine .inr ⟨hnone, h'.keeps.entries _ _ hdir, above, habove, hleads.keep h'.keeps⟩

/-- What has grown above the parent of a path has grown above the path. -/
theorem Grown.of_parent (hparent : Path.parent? p = some parent) (h : Grown mode parent t u) :
    Grown mode p t u where
  workingDirectory := h.workingDirectory
  places place := by
    rcases h.places place with hsame | ⟨hnone, hdir, above, habove, hleads⟩
    · exact .inl hsame
    · exact .inr ⟨hnone, hdir, above, .parent hparent habove, hleads⟩

theorem isLast_append {rest tail : List String} :
    isLast (rest ++ tail) = true ↔ isLast rest = true ∧ isLast tail = true := by
  rw [isLast, List.all_append, Bool.and_eq_true, isLast, isLast]

/-- Slashes behind a directory lead to the directory. -/
theorem way_of_isLast {ending : Ending} {links : Nat} {rest : List String}
    (hdir : t.get? place = some (.directory mode)) (h : isLast rest = true) :
    Way t ending links place rest (.found place (.directory mode)) := by
  induction rest with
  | nil => exact .arrive hdir
  | cons part rest ih =>
    rw [isLast, List.all_cons, Bool.and_eq_true, decide_eq_true_eq] at h
    exact .idle hdir (.inl h.1) (ih h.2)

theorem exists_finalSlashes (parts : List String) :
    ∃ tail, parts = Path.withoutFinalSlashes parts ++ tail ∧ isLast tail = true := by
  refine ⟨(parts.reverse.takeWhile (· = "")).reverse, ?_, ?_⟩
  · rw [Path.withoutFinalSlashes, ← List.reverse_append, List.takeWhile_append_dropWhile,
      List.reverse_reverse]
  · rw [isLast, List.all_reverse]
    exact List.all_takeWhile

theorem ne_nil_of_get?_eq_none (h : t.get? place = none) : place ≠ [] := by
  rintro rfl
  rw [get?, if_pos rfl] at h
  cases h

/-- A name that is free leads to the directory that is made there. -/
theorem leadsTo_of_vacant (h : t.resolveName p = .ok (.vacant place)) :
    (t.put place (.directory mode)).LeadsTo p place (.directory mode) := by
  obtain ⟨htaken, hway⟩ := resolveParts_eq_ok_iff.mp h
  have hnone := hway.get?_of_vacant rfl
  have hafter : (t.put place (.directory mode)).get? place = some (.directory mode) :=
    get?_put_self (ne_nil_of_get?_eq_none hnone)
  have hbefore : t.IsPassable place := fun e he => by rw [hnone] at he; cases he
  obtain ⟨tail, hparts, htail⟩ := exists_finalSlashes (Path.parts p)
  refine ⟨htaken, ?_⟩
  rw [hparts]
  refine hway.put rfl hbefore (fun other hother => get?_put_of_ne hother) hafter nofun ?_
  -- The slashes that were left out lead to the new directory as well.
  exact fun links rest hrest _ => way_of_isLast hafter (isLast_append.mpr ⟨hrest, htail⟩)

/-- A directory that was made has grown at the end of its path. -/
theorem grown_of_vacant (h : t.resolveName p = .ok (.vacant place)) :
    Grown mode p t (t.put place (.directory mode)) where
  workingDirectory := rfl
  places other := by
    by_cases hother : other = place
    · subst hother
      have hleads : (t.put other (.directory mode)).LeadsTo p other (.directory mode) :=
        leadsTo_of_vacant h
      have hnone := (resolveParts_eq_ok_iff.mp h).2.get?_of_vacant rfl
      exact .inr ⟨hnone, hleads.way.get?_of_found rfl, p, .self p, hleads⟩
    · exact .inl (get?_put_of_ne hother)

end FileTree

namespace Edit

variable {t u : FileTree} {mode : Nat} {p : Path} {e : IoError}

/-- How the making of a directory ends, once the parents that it lacks were made. -/
inductive Concluded (mode : Nat) (p : Path) (u : FileTree) : Except IoError Unit × FileTree → Prop
  | made {place : Location} (h : u.resolveName p = .ok (.vacant place)) :
      Concluded mode p u (.ok (), u.put place (.directory mode))
  | there (h : u.isDirectory p = true) : Concluded mode p u (.ok (), u)
  | refused (e : IoError) : Concluded mode p u (.error e, u)

theorem concluded_unlessDirectory : Concluded mode p u ((unlessDirectory p e).on u) := by
  rw [unlessDirectory_on]
  split
  next h => exact .there h
  next => exact .refused e

/-- A directory is made, or it is not and the tree stays as it is. -/
theorem makeDirectory_cases (mode : Nat) (p : Path) (u : FileTree) :
    (∃ place, u.resolveName p = .ok (.vacant place) ∧
      (makeDirectory mode p).on u = (.ok (), u.put place (.directory mode))) ∨
    ∃ e, (makeDirectory mode p).on u = (.error e, u) := by
  rw [makeDirectory_on]
  cases u.resolveName p with
  | error e => exact .inr ⟨e, rfl⟩
  | ok x =>
    cases x with
    | found place e => exact .inr ⟨_, rfl⟩
    | vacant place => exact .inl ⟨place, rfl, rfl⟩

/-- The making of a directory with its parents ends in the tree that it began with, or in the one
that the making of the parent has left. -/
theorem ensureDirectory_cases (mode : Nat) (p : Path) (t : FileTree) :
    p = "" ∧ (ensureDirectory mode p).on t = (.ok (), t) ∨
      p ≠ "" ∧ Concluded mode p t ((ensureDirectory mode p).on t) ∨
      p ≠ "" ∧ ∃ parent, Path.parent? p = some parent ∧
        Concluded mode p ((ensureDirectory mode parent).on t).2
          ((ensureDirectory mode p).on t) := by
  rw [ensureDirectory_on]
  by_cases hp : p = ""
  · rw [if_pos hp]
    exact .inl ⟨hp, rfl⟩
  rw [if_neg hp]
  rcases makeDirectory_cases mode p t with ⟨place, hvacant, hmade⟩ | ⟨e, hfailed⟩
  · rw [hmade]
    exact .inr (.inl ⟨hp, .made hvacant⟩)
  rw [hfailed]
  dsimp only
  split
  next =>
    cases hparent : Path.parent? p with
    | none => exact .inr (.inl ⟨hp, .refused e⟩)
    | some parent =>
      -- The second attempt is made in the tree that the making of the parent has left.
      refine .inr (.inr ⟨hp, parent, rfl, ?_⟩)
      dsimp only
      rcases (ensureDirectory mode parent).on t with ⟨f | _, u⟩
      · exact .refused f
      · dsimp only
        rcases makeDirectory_cases mode p u with ⟨place, hvacant, hmade⟩ | ⟨f, hfailed⟩
        · rw [hmade]
          exact .made hvacant
        · rw [hfailed]
          exact concluded_unlessDirectory
  next => exact .inr (.inl ⟨hp, concluded_unlessDirectory⟩)

/-- Whatever comes of the attempt, the tree has grown at most. -/
theorem Concluded.grown {r : Except IoError Unit × FileTree} (h : Concluded mode p u r) :
    FileTree.Grown mode p u r.2 := by
  cases h with
  | made hvacant => exact FileTree.grown_of_vacant hvacant
  | there | refused => exact .refl mode p u

/-- Making a directory with its parents only lets the tree grow, even if it fails. -/
theorem grown_ensureDirectory (mode : Nat) (p : Path) (t : FileTree) :
    FileTree.Grown mode p t ((ensureDirectory mode p).on t).2 := by
  -- The induction is on the length of the path, which is longer than its parent.
  induction hn : p.length using Nat.strongRecOn generalizing p with
  | ind n ih =>
    rcases ensureDirectory_cases mode p t with ⟨-, hr⟩ | ⟨-, h⟩ | ⟨-, parent, hparent, h⟩
    · rw [hr]
      exact .refl mode p t
    · exact h.grown
    · have hshorter := Path.length_lt_of_parent? hparent
      exact ((ih parent.length (hn ▸ hshorter) parent rfl).of_parent hparent).trans h.grown

/-- After a success the path leads to a directory. -/
theorem Concluded.leadsTo {v : FileTree} (h : Concluded mode p u (.ok (), v)) :
    ∃ place m, v.LeadsTo p place (.directory m) := by
  cases h with
  | made hvacant => exact ⟨_, _, FileTree.leadsTo_of_vacant hvacant⟩
  | there hdir => exact FileTree.isDirectory_iff.mp hdir

/-- If it succeeds, the path leads to a directory. -/
theorem leadsTo_of_ensureDirectory (h : (ensureDirectory mode p).on t = (.ok (), u)) :
    p = "" ∧ u = t ∨ ∃ place m, u.LeadsTo p place (.directory m) := by
  rcases ensureDirectory_cases mode p t with ⟨hp, hr⟩ | ⟨-, hc⟩ | ⟨-, parent, -, hc⟩
  · rw [h, Prod.mk.injEq] at hr
    exact .inl ⟨hp, hr.2⟩
  · rw [h] at hc
    exact .inr hc.leadsTo
  · rw [h] at hc
    exact .inr hc.leadsTo

/-- A directory is made at once where its name is free. -/
theorem ensureDirectory_of_vacant {place : Location}
    (h : t.resolveName p = .ok (.vacant place)) :
    (ensureDirectory mode p).on t = (.ok (), t.put place (.directory mode)) := by
  have hmade : (makeDirectory mode p).on t = (.ok (), t.put place (.directory mode)) := by
    rw [makeDirectory_on, h]
  have htaken := (FileTree.resolveParts_eq_ok_iff.mp h).1
  rw [ensureDirectory_on, if_neg htaken.nonempty, hmade]

/-- A directory that is there stays as it is. -/
theorem ensureDirectory_of_leadsTo {place : Location} {m : Nat}
    (h : t.LeadsTo p place (.directory m)) : (ensureDirectory mode p).on t = (.ok (), t) := by
  obtain ⟨tail, hparts, -⟩ := FileTree.exists_finalSlashes (Path.parts p)
  obtain ⟨place', e, hway⟩ := h.way.unfollowed hparts rfl
  have hname : t.resolveName p = .ok (.found place' e) :=
    FileTree.resolveParts_eq_ok_iff.mpr ⟨h.taken, hway⟩
  have htaken : (makeDirectory mode p).on t = (.error (.os .alreadyExists), t) := by
    rw [makeDirectory_on, hname]
  have hdir : t.isDirectory p = true := FileTree.isDirectory_iff.mpr ⟨place, m, h⟩
  rw [ensureDirectory_on, if_neg h.taken.nonempty, htaken]
  dsimp only
  rw [if_neg (by decide), unlessDirectory_on, if_pos hdir]

end Edit

/-! ## Files -/

section Files

variable {t u : FileTree} {p : Path} {place : Location} {x : FileTree.Target}

/-- A path on which a file can be created leads to the file that is put there. -/
theorem FileTree.leadsTo_of_create (h : t.resolve .create p = .ok x) (hplace : x.place = place)
    (hbefore : t.IsPassable place) (hne : place ≠ []) (mode : Nat) (text : String) :
    (t.put place (.file mode text)).LeadsTo p place (.file mode text) := by
  obtain ⟨htaken, hway⟩ := resolveParts_eq_ok_iff.mp h
  have hafter : (t.put place (.file mode text)).get? place = some (.file mode text) :=
    get?_put_self hne
  refine ⟨htaken, ?_⟩
  rw [← List.append_nil (Path.parts p)]
  refine hway.put hplace hbefore (fun other hother => get?_put_of_ne hother) hafter nofun ?_
  -- The name of a file ends its path.
  intro links rest _ hcreate
  rw [hcreate rfl]
  exact .arrive hafter

/-- A file that was written is what its path leads to, and everything else is as it was. -/
theorem Edit.leadsTo_of_writeFile {text : String} (h : (writeFile p text).on t = (.ok (), u)) :
    ∃ place mode, u.LeadsTo p place (.file mode text) ∧
      ∀ other, other ≠ place → u.get? other = t.get? other := by
  rw [writeFile_on] at h
  cases hresolve : t.resolve .create p with
  | error e =>
    rw [hresolve] at h
    cases h
  | ok x =>
    have hway := (FileTree.resolveParts_eq_ok_iff.mp hresolve).2
    cases x with
    -- The file is new, or it is written over; anything else is refused.
    | vacant place =>
      rw [hresolve] at h
      cases h
      have hnone := hway.get?_of_vacant rfl
      have hbefore : t.IsPassable place := fun e he => by rw [hnone] at he; cases he
      exact ⟨place, _, FileTree.leadsTo_of_create hresolve rfl hbefore
        (FileTree.ne_nil_of_get?_eq_none hnone) _ _, fun _ => FileTree.get?_put_of_ne⟩
    | found place e =>
      cases e with
      | directory | link =>
        rw [hresolve] at h
        cases h
      | file mode before =>
        rw [hresolve] at h
        cases h
        have hfile := hway.get?_of_found rfl
        have hbefore : t.IsPassable place := fun e he => ⟨mode, before, by
          rw [hfile] at he
          exact (Option.some.inj he).symm⟩
        have hne : place ≠ [] := by
          rintro rfl
          cases hfile
        exact ⟨place, mode, FileTree.leadsTo_of_create hresolve rfl hbefore hne _ _,
          fun _ => FileTree.get?_put_of_ne⟩

end Files

end OnionPool
