import Mathlib.Data.List.Forall2
import OnionPool.Command.Startup
import OnionPool.Proofs.TreeWalk

/-!
# Which programs are found

A program is found at its own path if its name has a slash, and else in the first directory of the
search path in which the name leads to a file that may be executed. If all needed programs are
found, the search returns their paths; if not, it names the first that is missing.

## Structure

- Search paths: `Lists` relates a search path to its directories, by the colons between them.
- One program: `Found` says where a program is found, and `find?_eq_some_iff` that the search agrees
  with it. `IsThere` says of a name, without an order of search, that it is found somewhere.
- All programs: the needed ones are looked for in a fixed order.
-/

namespace OnionPool

/-! ## Search paths -/

/-- A separator is in none of the pieces between separators. -/
theorem Text.not_mem_of_mem_splitOn {c : Char} {s : List Char} :
    ∀ piece ∈ s.splitOn c, c ∉ piece := by
  induction s with
  | nil => simp
  | cons d rest ih =>
    rw [List.splitOn_cons_eq_if_modifyHead]
    split
    next h =>
      rw [List.forall_mem_cons]
      exact ⟨List.not_mem_nil, ih⟩
    next h =>
      cases hrest : rest.splitOn c with
      | nil => exact absurd hrest (List.splitOn_ne_nil c rest)
      | cons piece pieces =>
        rw [hrest, List.forall_mem_cons] at ih
        rw [List.modifyHead_cons, List.forall_mem_cons, List.mem_cons, not_or]
        exact ⟨⟨fun hcd => h (by simp [hcd]), ih.1⟩, ih.2⟩

namespace Programs

/-- A search path lists directories: it consists of them with colons between them. -/
structure Lists (searchPath : String) (dirs : List Path) : Prop where
  nonempty : dirs ≠ []
  clean : ∀ dir ∈ dirs, ':' ∉ dir.toList
  text : searchPath.toList = [':'].intercalate (dirs.map String.toList)

variable {t : FileTree} {searchPath : Option String} {path name : String} {dirs : List Path}
  {p : Path}

/-- The directories of a search path are its parts between colons. -/
theorem lists_iff : Lists path dirs ↔ dirs = directories path := by
  constructor
  · rintro ⟨hne, hclean, htext⟩
    have hpieces : path.toList.splitOn ':' = dirs.map String.toList := by
      rw [htext]
      refine List.splitOn_intercalate _ (fun piece hpiece => ?_) (by simpa using hne)
      obtain ⟨dir, hdir, rfl⟩ := List.mem_map.mp hpiece
      exact hclean dir hdir
    rw [directories, hpieces, List.map_map]
    exact (List.map_id'' (fun _ => String.ofList_toList) dirs).symm
  · rintro rfl
    have hback : (directories path).map String.toList = path.toList.splitOn ':' := by
      rw [directories, List.map_map]
      exact List.map_id'' (fun _ => String.toList_ofList) _
    refine ⟨?_, ?_, ?_⟩
    · exact fun h => List.splitOn_ne_nil ':' path.toList (List.map_eq_nil_iff.mp h)
    · intro dir hdir
      obtain ⟨piece, hpiece, rfl⟩ := List.mem_map.mp hdir
      rw [String.toList_ofList]
      exact Text.not_mem_of_mem_splitOn piece hpiece
    · rw [hback, List.intercalate_splitOn]

/-! ## One program -/

/-- A path leads to a file that somebody may execute. -/
def IsProgram (t : FileTree) (p : Path) : Prop :=
  ∃ place mode text, t.LeadsTo p place (.file mode text) ∧ mode &&& 0o111 ≠ 0

/-- A program is found at a path. -/
inductive Found (t : FileTree) (searchPath : Option String) : String → Path → Prop
  /-- A name with a slash is the path. -/
  | named {name : String} (hslash : '/' ∈ name.toList) (h : IsProgram t name) :
      Found t searchPath name name
  /-- Any other name is looked for in the directories of the search path, and the first counts. -/
  | searched {name path : String} {before after : List Path} {dir : Path} (hname : name ≠ "")
      (hslash : '/' ∉ name.toList) (hpath : searchPath = some path)
      (hdirs : Lists path (before ++ dir :: after))
      (hbefore : ∀ other ∈ before, ¬ IsProgram t (Path.join other name))
      (h : IsProgram t (Path.join dir name)) : Found t searchPath name (Path.join dir name)

/-- A name leads to a program: by itself, or in some directory of the search path. -/
def IsThere (t : FileTree) (searchPath : Option String) (name : String) : Prop :=
  '/' ∈ name.toList ∧ IsProgram t name ∨
    name ≠ "" ∧ '/' ∉ name.toList ∧ ∃ path dirs dir, searchPath = some path ∧ Lists path dirs ∧
      dir ∈ dirs ∧ IsProgram t (Path.join dir name)

/-- Whatever is found is a program. -/
theorem isProgram_of_found (h : Found t searchPath name p) : IsProgram t p := by
  cases h with
  | named _ h => exact h
  | searched _ _ _ _ _ h => exact h

theorem isPath_iff : isPath name = true ↔ '/' ∈ name.toList := List.contains_iff_mem

theorem isProgram_iff : t.isExecutable p = true ↔ IsProgram t p := FileTree.isExecutable_iff

theorem not_isProgram_iff : (!t.isExecutable p) = true ↔ ¬ IsProgram t p := by
  rw [← isProgram_iff, Bool.not_eq_true', Bool.not_eq_true]

/-- A name without a slash is found in the first directory that has it. -/
theorem find?_candidates_eq_some_iff :
    (candidates path name).find? t.isExecutable = some p ↔
      ∃ before dir after, Lists path (before ++ dir :: after) ∧
        (∀ other ∈ before, ¬ IsProgram t (Path.join other name)) ∧
        IsProgram t (Path.join dir name) ∧ p = Path.join dir name := by
  rw [candidates, List.find?_map, Option.map_eq_some_iff]
  simp only [List.find?_eq_some_iff_append, Function.comp_apply, lists_iff]
  constructor
  · rintro ⟨dir, ⟨h, before, after, hdirs, hbefore⟩, rfl⟩
    exact ⟨before, dir, after, hdirs.symm, fun other hother =>
      not_isProgram_iff.mp (hbefore other hother), isProgram_iff.mp h, rfl⟩
  · rintro ⟨before, dir, after, hdirs, hbefore, h, rfl⟩
    exact ⟨dir, ⟨isProgram_iff.mpr h, before, after, hdirs.symm, fun other hother =>
      not_isProgram_iff.mpr (hbefore other hother)⟩, rfl⟩

/-- The search finds the first program of its name. -/
theorem find?_eq_some_iff : find? t searchPath name = some p ↔ Found t searchPath name p := by
  unfold find?
  split
  next hempty =>
    subst hempty
    constructor
    · nofun
    · rintro (⟨hslash, -⟩ | ⟨hname, -⟩)
      · exact absurd hslash List.not_mem_nil
      · exact absurd rfl hname
  next hname =>
    split
    next hslash =>
      rw [isPath_iff] at hslash
      constructor
      · intro h
        obtain ⟨hprogram, rfl⟩ := Option.ite_some_none_eq_some.mp h
        exact .named hslash (isProgram_iff.mp hprogram)
      · rintro (⟨-, h⟩ | ⟨-, hnot, -⟩)
        · exact if_pos (isProgram_iff.mpr h)
        · exact absurd hslash hnot
    next hslash =>
      rw [isPath_iff] at hslash
      cases searchPath with
      | none =>
        -- There is nowhere to look for the name.
        constructor
        · nofun
        · rintro (⟨hin, -⟩ | ⟨-, -, ⟨⟩, -⟩)
          exact absurd hin hslash
      | some path =>
        rw [Option.map_some, Option.getD_some, find?_candidates_eq_some_iff]
        constructor
        · rintro ⟨before, dir, after, hdirs, hbefore, h, rfl⟩
          exact .searched hname hslash rfl hdirs hbefore h
        · rintro (⟨hin, -⟩ | ⟨-, -, ⟨⟩, hdirs, hbefore, h⟩)
          · exact absurd hin hslash
          · exact ⟨_, _, _, hdirs, hbefore, h, rfl⟩

/-- A program is found exactly if it is anywhere where it is looked for. -/
theorem exists_found_iff : (∃ p, Found t searchPath name p) ↔ IsThere t searchPath name := by
  constructor
  · rintro ⟨p, ⟨hslash, h⟩ | ⟨hname, hslash, hpath, hdirs, -, h⟩⟩
    · exact .inl ⟨hslash, h⟩
    · exact .inr ⟨hname, hslash, _, _, _, hpath, hdirs, List.mem_append_right _
        (List.mem_cons_self ..), h⟩
  · rintro (⟨hslash, h⟩ | ⟨hname, hslash, path, dirs, dir, rfl, hdirs, hdir, h⟩)
    · exact ⟨name, .named hslash h⟩
    · -- If some directory has the program, then one of them is the first that has it.
      have hsome : ((candidates path name).find? t.isExecutable).isSome = true := by
        rw [List.find?_isSome]
        refine ⟨Path.join dir name, List.mem_map.mpr ⟨dir, ?_, rfl⟩, isProgram_iff.mpr h⟩
        rw [← lists_iff.mp hdirs]
        exact hdir
      obtain ⟨p, hp⟩ := Option.isSome_iff_exists.mp hsome
      obtain ⟨before, dir, after, hdirs, hbefore, h, rfl⟩ := find?_candidates_eq_some_iff.mp hp
      exact ⟨_, .searched hname hslash rfl hdirs hbefore h⟩

/-- The search fails exactly if there is no such program. -/
theorem find?_eq_none_iff : find? t searchPath name = none ↔ ¬ IsThere t searchPath name := by
  rw [← exists_found_iff, Option.eq_none_iff_forall_ne_some, not_exists]
  exact forall_congr' fun p => not_congr find?_eq_some_iff

/-! ## All programs -/

section All

variable {names : List String} {paths : List Path} {f : Failure}

/-- The programs are looked for one after the other, up to the first that is missing. -/
theorem findAll_cons : findAll t searchPath (name :: names) =
    match find? t searchPath name, findAll t searchPath names with
    | none, _ => .error (.missingProgram name)
    | some _, .error f => .error f
    | some p, .ok paths => .ok (p :: paths) := by
  rw [findAll, List.mapM_cons, ← findAll]
  cases find? t searchPath name with
  | none => rfl
  | some p =>
    cases findAll t searchPath names with
    | error f => rfl
    | ok paths => rfl

/-- All programs are found together exactly if each of them is found. -/
theorem findAll_eq_ok_iff :
    findAll t searchPath names = .ok paths ↔ List.Forall₂ (Found t searchPath) names paths := by
  induction names generalizing paths with
  | nil =>
    rw [List.forall₂_nil_left_iff]
    exact ⟨fun h => (Except.ok.inj h).symm, fun h => congrArg Except.ok h.symm⟩
  | cons name names ih =>
    rw [findAll_cons]
    constructor
    · intro h
      split at h
      next => cases h
      next => cases h
      next p rest hfind hrest =>
        cases h
        exact .cons (find?_eq_some_iff.mp hfind) (ih.mp hrest)
    · rintro (_ | ⟨hname, hnames⟩)
      rw [find?_eq_some_iff.mpr hname, ih.mpr hnames]

/-- The first program that is missing is the one that is reported. -/
theorem findAll_eq_error_iff :
    findAll t searchPath names = .error f ↔
      ∃ before name after, names = before ++ name :: after ∧
        (∀ other ∈ before, IsThere t searchPath other) ∧ ¬ IsThere t searchPath name ∧
          f = .missingProgram name := by
  -- By induction on the names: the head is missing, or the first missing one is in the tail.
  induction names with
  | nil =>
    constructor
    · nofun
    · rintro ⟨before, name, after, h, -⟩
      exact absurd h.symm (List.append_ne_nil_of_right_ne_nil before (List.cons_ne_nil name after))
  | cons name names ih =>
    rw [findAll_cons]
    constructor
    · intro h
      split at h
      next hfind =>
        cases h
        exact ⟨[], name, names, rfl, nofun, find?_eq_none_iff.mp hfind, rfl⟩
      next p g hfind hrest =>
        cases h
        obtain ⟨before, missing, after, rfl, hbefore, hmissing, hf⟩ := ih.mp hrest
        refine ⟨name :: before, missing, after, rfl, ?_, hmissing, hf⟩
        rw [List.forall_mem_cons]
        exact ⟨exists_found_iff.mp ⟨p, find?_eq_some_iff.mp hfind⟩, hbefore⟩
      next => cases h
    · rintro ⟨before, missing, after, h, hbefore, hmissing, hf⟩
      cases before with
      | nil =>
        cases h
        rw [find?_eq_none_iff.mpr hmissing, hf]
      | cons first before =>
        cases h
        rw [List.forall_mem_cons] at hbefore
        obtain ⟨p, hp⟩ := exists_found_iff.mpr hbefore.1
        rw [find?_eq_some_iff.mpr hp, ih.mpr ⟨before, missing, after, rfl, hbefore.2, hmissing, hf⟩]

/-- **Programs are found in order**, in every tree, with links that lead nowhere or round in circles
in it: a name with a slash is its own path, any other is found in the first directory of the search
path that has the program, and it is found if there is one; what is found is a program. The needed
programs are found together exactly if each is found, and otherwise the first that is missing is
named. -/
theorem programs_are_found_in_order (t : FileTree) (searchPath : Option String) (c : Config) :
    (∀ name p, find? t searchPath name = some p ↔ Found t searchPath name p) ∧
      (∀ name, (∃ p, find? t searchPath name = some p) ↔ IsThere t searchPath name) ∧
      (∀ name p, find? t searchPath name = some p → IsProgram t p) ∧
      (∀ paths, findAll t searchPath (Command.neededPrograms c) = .ok paths ↔
        ∃ haproxy privoxy tor, paths = [haproxy, privoxy, tor] ∧
          Found t searchPath c.programs.haproxy haproxy ∧
          Found t searchPath c.programs.privoxy privoxy ∧ Found t searchPath c.programs.tor tor) ∧
      ∀ f, findAll t searchPath (Command.neededPrograms c) = .error f ↔
        ∃ before name after,
          [c.programs.haproxy, c.programs.privoxy, c.programs.tor] = before ++ name :: after ∧
          (∀ other ∈ before, IsThere t searchPath other) ∧ ¬ IsThere t searchPath name ∧
          f = .missingProgram name := by
  refine ⟨fun name p => find?_eq_some_iff, fun name => ?_,
    fun name p h => isProgram_of_found (find?_eq_some_iff.mp h), fun paths => ?_,
    fun f => findAll_eq_error_iff⟩
  · simp only [find?_eq_some_iff, exists_found_iff]
  · rw [findAll_eq_ok_iff, Command.neededPrograms]
    constructor
    · rintro (_ | ⟨hhaproxy, _ | ⟨hprivoxy, _ | ⟨htor, _ | _⟩⟩⟩)
      exact ⟨_, _, _, rfl, hhaproxy, hprivoxy, htor⟩
    · rintro ⟨haproxy, privoxy, tor, rfl, hhaproxy, hprivoxy, htor⟩
      exact .cons hhaproxy (.cons hprivoxy (.cons htor .nil))

end All

end Programs

end OnionPool
