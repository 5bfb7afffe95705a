import OnionPool.FileTree.Basic

/-!
# Where a path leads

The walk along a path, said without the function that takes it: a relation with one rule for each
thing that a part of a path can be. The number in it bounds the links that are followed, so a path
that goes round in circles leads nowhere.

## Structure

- Ways: `Way` relates a place and the parts of a path to what they lead to, and `walk_eq_ok_iff`
  says that the walk finds exactly that.
- Paths: `LeadsTo` is the same for a whole path, as `lookup` takes it.
- Changes: a way to an entry stays where nothing is taken away, and a way to a free name leads to
  whatever is put there.
-/

namespace OnionPool.FileTree

/-! ## Ways -/

/-- The place that a target is at. -/
def Target.place : Target → Location
  | found place _ => place
  | vacant place => place

/-- A part is taken as a name: it is none of the parts with a meaning of their own, and not too
long; and for something to be created no slash may stand behind it. -/
structure IsName (ending : Ending) (part : String) (rest : List String) : Prop where
  proper : part ≠ "" ∧ part ≠ "." ∧ part ≠ ".."
  short : part.utf8ByteSize ≤ maxName
  final : ¬ (ending = .create ∧ isLast rest ∧ rest ≠ [])

/-- The parts of a path lead from a place to a target, and at most so many links are followed. Every
part is looked for in a directory. -/
inductive Way (t : FileTree) (ending : Ending) : Nat → Location → List String → Target → Prop
  | arrive {links : Nat} {place : Location} {e : Entry} (hentry : t.get? place = some e) :
      Way t ending links place [] (.found place e)
  /-- An empty part, and the part `.`, stand for the directory itself. -/
  | idle {links mode : Nat} {place : Location} {part : String} {rest : List String} {x : Target}
      (hdir : t.get? place = some (.directory mode)) (hpart : part = "" ∨ part = ".")
      (h : Way t ending links place rest x) : Way t ending links place (part :: rest) x
  | up {links mode : Nat} {place : Location} {rest : List String} {x : Target}
      (hdir : t.get? place = some (.directory mode))
      (h : Way t ending links place.dropLast rest x) : Way t ending links place (".." :: rest) x
  /-- The last name may be free. -/
  | vacant {links mode : Nat} {place : Location} {part : String} {rest : List String}
      (hdir : t.get? place = some (.directory mode)) (hname : IsName ending part rest)
      (hnone : t.get? (place ++ [part]) = none) (hlast : isLast rest = true) :
      Way t ending links place (part :: rest) (.vacant (place ++ [part]))
  | link {links mode : Nat} {place : Location} {part : String} {rest : List String}
      {target : Path} (hdir : t.get? place = some (.directory mode))
      (hname : IsName ending part rest) (hlink : t.get? (place ++ [part]) = some (.link target))
      (hlast : isLast rest = true ∧ ending = .stay) :
      Way t ending links place (part :: rest) (.found (place ++ [part]) (.link target))
  /-- A link is followed from the directory that it is in, unless its target begins at the root. -/
  | follow {links mode : Nat} {place : Location} {part : String} {rest : List String}
      {target : Path} {x : Target} (hdir : t.get? place = some (.directory mode))
      (hname : IsName ending part rest) (hlink : t.get? (place ++ [part]) = some (.link target))
      (hgo : ¬ (isLast rest = true ∧ ending = .stay))
      (h : Way t ending links (if Path.isAbsolute target then [] else place)
        (Path.parts target ++ rest) x) : Way t ending (links + 1) place (part :: rest) x
  | down {links mode : Nat} {place : Location} {part : String} {rest : List String} {e : Entry}
      {x : Target} (hdir : t.get? place = some (.directory mode)) (hname : IsName ending part rest)
      (hentry : t.get? (place ++ [part]) = some e) (hnolink : ∀ target, e ≠ .link target)
      (h : Way t ending links (place ++ [part]) rest x) : Way t ending links place (part :: rest) x

variable {t u : FileTree} {ending : Ending} {links : Nat} {place q : Location}
  {part : String} {rest parts : List String} {x y : Target} {e : Entry} {p : Path}

theorem isName_of_not (hplain : ¬ (part = "" ∨ part = ".")) (hup : part ≠ "..")
    (hcreate : ¬ (ending = .create ∧ isLast rest ∧ rest ≠ []))
    (hlong : ¬ maxName < part.utf8ByteSize) : IsName ending part rest := by
  rw [not_or] at hplain
  exact ⟨⟨hplain.1, hplain.2, hup⟩, Nat.le_of_not_lt hlong, hcreate⟩

theorem way_of_walk (h : walk t ending links place parts = .ok x) :
    Way t ending links place parts x := by
  -- One rule for each case in which the walk goes on or ends well; in all others it fails.
  fun_induction walk t ending links place parts with
  | case1 links place e hentry =>
    cases h
    exact .arrive hentry
  | case3 links place part rest mode hdir hpart ih => exact .idle hdir hpart (ih h)
  | case4 links place rest mode hdir _ ih => exact .up hdir (ih h)
  | case7 links place part rest mode hdir hplain hup hcreate hlong hnone hlast =>
    cases h
    exact .vacant hdir (isName_of_not hplain hup hcreate hlong) hnone hlast
  | case9 links place part rest mode hdir hplain hup hcreate hlong target hlink hlast =>
    cases h
    exact .link hdir (isName_of_not hplain hup hcreate hlong) hlink hlast
  | case11 place part rest mode hdir hplain hup hcreate hlong target hlink hgo links start ih =>
    exact .follow hdir (isName_of_not hplain hup hcreate hlong) hlink hgo (ih h)
  | case12 links place part rest mode hdir hplain hup hcreate hlong e hnolink hentry ih =>
    exact .down hdir (isName_of_not hplain hup hcreate hlong) hentry hnolink (ih h)
  | _ => cases h

/-- In a directory the walk takes a name by what the directory holds under it. -/
theorem walk_name {mode : Nat} (hdir : t.get? place = some (.directory mode))
    (hname : IsName ending part rest) : walk t ending links place (part :: rest) =
      match t.get? (place ++ [part]) with
      | none => if isLast rest then .ok (.vacant (place ++ [part])) else .error .notFound
      | some (.link target) =>
        if isLast rest ∧ ending = .stay then .ok (.found (place ++ [part]) (.link target))
        else match links with
          | 0 => .error .tooManyLinks
          | links + 1 =>
            walk t ending links (if Path.isAbsolute target then [] else place)
              (Path.parts target ++ rest)
      | some _ => walk t ending links (place ++ [part]) rest := by
  obtain ⟨⟨hempty, hdot, hup⟩, hshort, hcreate⟩ := hname
  have hplain : ¬ (part = "" ∨ part = ".") := not_or.mpr ⟨hempty, hdot⟩
  rw [walk, hdir]
  exact (if_neg hplain).trans ((if_neg hup).trans ((if_neg hcreate).trans
    (if_neg (Nat.not_lt.mpr hshort))))

theorem walk_of_way (h : Way t ending links place parts x) :
    walk t ending links place parts = .ok x := by
  induction h with
  | arrive hentry => rw [walk, hentry]
  | idle hdir hpart _ ih =>
    rw [walk, hdir]
    simp only [if_pos hpart, ih]
  | up hdir _ ih =>
    rw [walk, hdir]
    simpa using ih
  | vacant hdir hname hnone hlast =>
    rw [walk_name hdir hname, hnone]
    exact if_pos hlast
  | link hdir hname hlink hlast =>
    rw [walk_name hdir hname, hlink]
    exact if_pos hlast
  | follow hdir hname hlink hgo _ ih =>
    rw [walk_name hdir hname, hlink]
    simp only [if_neg hgo, ih]
  | @down links mode place part rest e x hdir hname hentry hnolink _ ih =>
    rw [walk_name hdir hname, hentry]
    -- The walk goes on below a file too, and fails there unless the path ends.
    cases e with
    | link target => exact absurd rfl (hnolink target)
    | file | directory => exact ih

/-- The walk finds what the parts of a path lead to. -/
theorem walk_eq_ok_iff :
    walk t ending links place parts = .ok x ↔ Way t ending links place parts x :=
  ⟨way_of_walk, walk_of_way⟩

/-- There is one way at most. -/
theorem Way.unique (h : Way t ending links place parts x) (h' : Way t ending links place parts y) :
    x = y := Except.ok.inj ((walk_of_way h).symm.trans (walk_of_way h'))

/-! ## Paths -/

/-- A path that the system takes: it is not empty, not too long, and without a NUL. -/
structure IsTaken (p : Path) : Prop where
  clean : Char.ofNat 0 ∉ p.toList
  short : p.utf8ByteSize < pathBound
  nonempty : p ≠ ""

/-- Where a path starts. -/
def start (t : FileTree) (p : Path) : Location :=
  if Path.isAbsolute p then [] else t.workingDirectory

/-- A path leads to an entry at a place; all links are followed. -/
structure LeadsTo (t : FileTree) (p : Path) (place : Location) (e : Entry) : Prop where
  taken : IsTaken p
  way : Way t .follow maxLinks (t.start p) (Path.parts p) (.found place e)

theorem mapError_eq_ok_iff {r : Except OsError Target} :
    r.mapError IoError.os = .ok x ↔ r = .ok x := by
  cases r with
  | ok y => exact ⟨fun h => congrArg _ (Except.ok.inj h), fun h => congrArg _ (Except.ok.inj h)⟩
  | error e => exact ⟨nofun, nofun⟩

/-- A path is resolved exactly if it is taken and there is a way. -/
theorem resolveParts_eq_ok_iff :
    t.resolveParts ending p parts = .ok x ↔
      IsTaken p ∧ Way t ending maxLinks (t.start p) parts x := by
  have hclean : p.toList.contains (Char.ofNat 0) = true ↔ Char.ofNat 0 ∈ p.toList :=
    List.contains_iff_mem
  unfold resolveParts
  split
  next hnul => exact ⟨nofun, fun h => absurd (hclean.mp hnul) h.1.clean⟩
  next hnul =>
    split
    next hlong => exact ⟨nofun, fun h => absurd h.1.short (Nat.not_lt.mpr hlong)⟩
    next hshort =>
      split
      next hempty => exact ⟨nofun, fun h => absurd hempty h.1.nonempty⟩
      next hempty =>
        rw [mapError_eq_ok_iff, walk_eq_ok_iff]
        exact ⟨fun h => ⟨⟨mt hclean.mpr hnul, Nat.lt_of_not_le hshort, hempty⟩, h⟩, And.right⟩

/-- In an empty tree every name below the root is free. -/
theorem resolveName_empty {name : String} (htaken : IsTaken p)
    (hparts : Path.withoutFinalSlashes (Path.parts p) = ["", name]) (hname : IsName .stay name []) :
    empty.resolveName p = .ok (.vacant [name]) := by
  have hroot : empty.get? [] = some (.directory openMode) := rfl
  have hstart : empty.start p = [] := ite_self _
  refine resolveParts_eq_ok_iff.mpr ⟨htaken, ?_⟩
  rw [hparts, hstart]
  exact .idle hroot (.inl rfl) (.vacant hroot hname rfl rfl)

/-- A path is looked up exactly if it leads somewhere. -/
theorem lookup_eq_ok_iff : t.lookup p = .ok e ↔ ∃ place, t.LeadsTo p place e := by
  -- To lead somewhere is to be resolved to what is there.
  have hfound : ∀ place, t.LeadsTo p place e ↔ t.resolve .follow p = .ok (.found place e) := by
    intro place
    rw [resolve, resolveParts_eq_ok_iff]
    exact ⟨fun h => ⟨h.taken, h.way⟩, fun h => ⟨h.1, h.2⟩⟩
  simp only [hfound]
  unfold lookup
  cases t.resolve .follow p with
  | error f =>
    constructor
    · nofun
    · rintro ⟨place, ⟨⟩⟩
  | ok y =>
    cases y with
    | vacant place =>
      constructor
      · nofun
      · rintro ⟨place, ⟨⟩⟩
    | found place f =>
      constructor
      · rintro ⟨⟩
        exact ⟨place, rfl⟩
      · rintro ⟨place, ⟨⟩⟩
        rfl

/-- A path is one of a directory exactly if it leads to one. -/
theorem isDirectory_iff :
    t.isDirectory p = true ↔ ∃ place mode, t.LeadsTo p place (.directory mode) := by
  unfold isDirectory
  constructor
  · intro h
    split at h
    next mode hlookup =>
      obtain ⟨place, hplace⟩ := lookup_eq_ok_iff.mp hlookup
      exact ⟨place, mode, hplace⟩
    next => cases h
  · rintro ⟨place, mode, h⟩
    rw [lookup_eq_ok_iff.mpr ⟨place, h⟩]

/-- A path is one of a program exactly if it leads to a file that somebody may execute. -/
theorem isExecutable_iff : t.isExecutable p = true ↔
    ∃ place mode text, t.LeadsTo p place (.file mode text) ∧ mode &&& 0o111 ≠ 0 := by
  unfold isExecutable
  constructor
  · intro h
    split at h
    next mode text hlookup =>
      obtain ⟨place, hplace⟩ := lookup_eq_ok_iff.mp hlookup
      exact ⟨place, mode, text, hplace, by simpa using h⟩
    next => cases h
  · rintro ⟨place, mode, text, h, hmode⟩
    rw [lookup_eq_ok_iff.mpr ⟨place, h⟩]
    simpa using hmode

/-! ## Changes -/

/-- Everything that a tree has is still there in another, as it was. -/
structure Keeps (t u : FileTree) : Prop where
  entries : ∀ place e, t.get? place = some e → u.get? place = some e
  workingDirectory : u.workingDirectory = t.workingDirectory

theorem Keeps.start (h : t.Keeps u) (p : Path) : u.start p = t.start p := by
  rw [FileTree.start, FileTree.start, h.workingDirectory]

/-- A way to an entry passes only over what is there. -/
theorem Way.keep (hkeep : t.Keeps u) (h : Way t ending links place parts x) (hx : x = .found q e) :
    Way u ending links place parts x := by
  induction h with
  | arrive hentry => exact .arrive (hkeep.entries _ _ hentry)
  | idle hdir hpart _ ih => exact .idle (hkeep.entries _ _ hdir) hpart (ih hx)
  | up hdir _ ih => exact .up (hkeep.entries _ _ hdir) (ih hx)
  | vacant => cases hx
  | link hdir hname hlink hlast =>
    exact .link (hkeep.entries _ _ hdir) hname (hkeep.entries _ _ hlink) hlast
  | follow hdir hname hlink hgo _ ih =>
    exact .follow (hkeep.entries _ _ hdir) hname (hkeep.entries _ _ hlink) hgo (ih hx)
  | down hdir hname hentry hnolink _ ih =>
    exact .down (hkeep.entries _ _ hdir) hname (hkeep.entries _ _ hentry) hnolink (ih hx)

/-- A path leads where it led as long as the tree is kept. -/
theorem LeadsTo.keep (hkeep : t.Keeps u) (h : t.LeadsTo p q e) : u.LeadsTo p q e :=
  ⟨h.taken, hkeep.start p ▸ h.way.keep hkeep rfl⟩

/-- What was found is there. -/
theorem Way.get?_of_found (h : Way t ending links place parts x) (hx : x = .found q e) :
    t.get? q = some e := by
  induction h with
  | arrive hentry =>
    cases hx
    exact hentry
  | vacant => cases hx
  | link _ _ hlink =>
    cases hx
    exact hlink
  | idle _ _ _ ih | up _ _ ih | follow _ _ _ _ _ ih | down _ _ _ _ _ ih => exact ih hx

/-- What is vacant is not there. -/
theorem Way.get?_of_vacant (h : Way t ending links place parts x) (hx : x = .vacant q) :
    t.get? q = none := by
  induction h with
  | arrive => cases hx
  | vacant _ _ hnone =>
    cases hx
    exact hnone
  | link => cases hx
  | idle _ _ _ ih | up _ _ ih | follow _ _ _ _ _ ih | down _ _ _ _ _ ih => exact ih hx

/-- Unless something is to be created, a name is one whatever follows it. -/
theorem IsName.other {ending' : Ending} {rest' : List String} (h : IsName ending part rest)
    (hending : ending' ≠ .create) : IsName ending' part rest' :=
  ⟨h.proper, h.short, fun hcreate => hending hcreate.1⟩

/-- Only a file, or nothing, is where something is put. -/
def IsPassable (t : FileTree) (q : Location) : Prop :=
  ∀ e, t.get? q = some e → ∃ mode text, e = .file mode text

/-- A way leads to what is put at its end, whatever more is said of that: on the way nothing is
passed but directories and links, and none of these is changed. -/
theorem Way.put {tail : List String} (h : Way t ending links place parts x) (hplace : x.place = q)
    (hbefore : t.IsPassable q) (hsame : ∀ other, other ≠ q → u.get? other = t.get? other)
    (hafter : u.get? q = some e) (hnolink : ∀ target, e ≠ .link target)
    (hend : ∀ links rest, isLast rest = true → (ending = .create → rest = []) →
      Way u .follow links q (rest ++ tail) y) :
    Way u .follow links place (parts ++ tail) y := by
  -- What the way passes is a directory or a link, so it is not at the place that changes.
  have hdirectory : ∀ {other mode}, t.get? other = some (.directory mode) →
      u.get? other = some (.directory mode) := by
    intro other mode hdir
    rw [hsame other ?_, hdir]
    rintro rfl
    obtain ⟨m, text, hfile⟩ := hbefore _ hdir
    cases hfile
  have hlinks : ∀ {other target}, t.get? other = some (.link target) →
      other ≠ q ∧ u.get? other = some (.link target) := by
    intro other target hlink
    have hne : other ≠ q := by
      rintro rfl
      obtain ⟨m, text, hfile⟩ := hbefore _ hlink
      cases hfile
    exact ⟨hne, by rw [hsame other hne, hlink]⟩
  induction h with
  | arrive hentry =>
    cases hplace
    exact hend _ [] rfl fun _ => rfl
  | idle hdir hpart _ ih => exact .idle (hdirectory hdir) hpart (ih hplace)
  | up hdir _ ih => exact .up (hdirectory hdir) (ih hplace)
  | @vacant links mode place part rest hdir hname hnone hlast =>
    cases hplace
    refine .down (hdirectory hdir) (hname.other nofun) hafter hnolink
      (hend _ rest hlast fun hcreate => ?_)
    exact Decidable.not_not.mp fun hrest => hname.final ⟨hcreate, hlast, hrest⟩
  | link hdir hname hlink hlast => exact absurd hplace (hlinks hlink).1
  | follow hdir hname hlink hgo _ ih =>
    rw [List.append_assoc] at ih
    exact .follow (hdirectory hdir) (hname.other nofun) (hlinks hlink).2 (fun h => nomatch h.2)
      (ih hplace)
  | @down links mode place part rest f x hdir hname hentry hfile _ ih =>
    by_cases hq : place ++ [part] = q
    · exact .down (hdirectory hdir) (hname.other nofun) (hq ▸ hafter) hnolink (ih hplace)
    · exact .down (hdirectory hdir) (hname.other nofun) ((hsame _ hq).trans hentry) hfile
        (ih hplace)

/-- On a way to an entry, every part but the last is a directory or a link to one, and the last is
taken, be it by a link. -/
theorem Way.unfollowed {ps tail : List String} (h : Way t .follow links place parts x)
    (hparts : parts = ps ++ tail) (hx : x = .found q e) :
    ∃ q' e', Way t .stay links place ps (.found q' e') := by
  induction h generalizing ps with
  | arrive hentry =>
    obtain ⟨rfl, -⟩ := List.append_eq_nil_iff.mp hparts.symm
    exact ⟨_, _, .arrive hentry⟩
  | idle hdir hpart _ ih =>
    cases ps with
    | nil => exact ⟨_, _, .arrive hdir⟩
    | cons part ps =>
      cases hparts
      obtain ⟨q', e', h⟩ := ih rfl hx
      exact ⟨q', e', .idle hdir hpart h⟩
  | up hdir _ ih =>
    cases ps with
    | nil => exact ⟨_, _, .arrive hdir⟩
    | cons part ps =>
      cases hparts
      obtain ⟨q', e', h⟩ := ih rfl hx
      exact ⟨q', e', .up hdir h⟩
  | vacant => cases hx
  | link _ _ _ hlast => cases hlast.2
  | @follow links mode place part rest target x hdir hname hlink _ _ ih =>
    cases ps with
    | nil => exact ⟨_, _, .arrive hdir⟩
    | cons part ps =>
      cases hparts
      -- A link that is the last part is what has the name; any other one is followed here too.
      by_cases hlast : isLast ps = true
      · exact ⟨_, _, .link hdir (hname.other nofun) hlink ⟨hlast, rfl⟩⟩
      · obtain ⟨q', e', h⟩ := ih (List.append_assoc ..).symm hx
        exact ⟨q', e', .follow hdir (hname.other nofun) hlink (fun hstay => hlast hstay.1) h⟩
  | down hdir hname hentry hnolink _ ih =>
    cases ps with
    | nil => exact ⟨_, _, .arrive hdir⟩
    | cons part ps =>
      cases hparts
      obtain ⟨q', e', h⟩ := ih rfl hx
      exact ⟨q', e', .down hdir (hname.other nofun) hentry hnolink h⟩

/-- A name at the end is looked for in the directory that the parts before it lead to. -/
theorem Way.of_snoc {ps : List String} (h : Way t .stay links place parts x)
    (hparts : parts = ps ++ [part]) (hpart : part ≠ "" ∧ part ≠ "." ∧ part ≠ "..") :
    ∃ q mode, Way t .follow links place ps (.found q (.directory mode)) ∧
      x.place = q ++ [part] := by
  -- As long as the name is still to come, no part counts as the last.
  have hmore : ∀ ps : List String, ¬ isLast (ps ++ [part]) = true := by
    intro ps hlast
    exact hpart.1 (by simpa using (List.all_eq_true.mp hlast) part (by simp))
  induction h generalizing ps with
  | arrive => cases (List.append_eq_nil_iff.mp hparts.symm).2
  | idle hdir hidle _ ih =>
    cases ps with
    | nil =>
      cases hparts
      rcases hidle with hidle | hidle
      · exact absurd hidle hpart.1
      · exact absurd hidle hpart.2.1
    | cons first ps =>
      cases hparts
      obtain ⟨q, mode, hway, hplace⟩ := ih rfl
      exact ⟨q, mode, .idle hdir hidle hway, hplace⟩
  | up hdir _ ih =>
    cases ps with
    | nil =>
      cases hparts
      exact absurd rfl hpart.2.2
    | cons first ps =>
      cases hparts
      obtain ⟨q, mode, hway, hplace⟩ := ih rfl
      exact ⟨q, mode, .up hdir hway, hplace⟩
  | vacant hdir _ _ hlast =>
    cases ps with
    | nil =>
      cases hparts
      exact ⟨_, _, .arrive hdir, rfl⟩
    | cons first ps =>
      cases hparts
      exact absurd hlast (hmore ps)
  | link hdir _ _ hlast =>
    cases ps with
    | nil =>
      cases hparts
      exact ⟨_, _, .arrive hdir, rfl⟩
    | cons first ps =>
      cases hparts
      exact absurd hlast.1 (hmore ps)
  | follow hdir hname hlink hgo _ ih =>
    cases ps with
    | nil =>
      cases hparts
      exact absurd ⟨rfl, rfl⟩ hgo
    | cons first ps =>
      cases hparts
      obtain ⟨q, mode, hway, hplace⟩ := ih (List.append_assoc ..).symm
      exact ⟨q, mode, .follow hdir (hname.other nofun) hlink (fun h => nomatch h.2) hway, hplace⟩
  | down hdir hname hentry hnolink h ih =>
    cases ps with
    | nil =>
      cases hparts
      cases h
      exact ⟨_, _, .arrive hdir, rfl⟩
    | cons first ps =>
      cases hparts
      obtain ⟨q, mode, hway, hplace⟩ := ih rfl
      exact ⟨q, mode, .down hdir (hname.other nofun) hentry hnolink hway, hplace⟩

end OnionPool.FileTree
