import Mathlib.Data.List.Nodup
import OnionPool.Pair.Site
import OnionPool.Proofs.LayoutText
import OnionPool.Proofs.TreeWalk

/-!
# Where pairs have their files

Each program of a pair has a directory that is named by the program and its port, in the one
directory of all pairs, whatever the path of that is. Different programs, or the same at different
ports, have different directories, and nothing in one of them has a path in another.

## Structure

- Joined paths: the last part of a path in a directory is the name there, and the parts before it
  are those of the directory.
- Folders: the name of a directory tells the program and the port.
- Paths: what a pair has in its directories, and that two pairs have nothing in common.
- Places: in a file tree, none of the directories is another, nor in another.
-/

namespace OnionPool

/-! ## Joined paths -/

namespace Path

variable {work name p : Path} {dir rest : List Char}

theorem isAbsolute_of_not_mem (h : '/' ∉ p.toList) : isAbsolute p = false := by
  unfold isAbsolute startsAtRoot
  split
  next rest hp =>
    rw [hp] at h
    exact absurd (List.mem_cons_self ..) h
  next => rfl

/-- A name without a slash is put into the directory. -/
theorem join_of_not_mem (h : '/' ∉ name.toList) :
    join work name = String.ofList (asParent work.toList) ++ name := by
  rw [join, isAbsolute_of_not_mem h]
  rfl

theorem startsAtRoot_append (h : dir ≠ []) : startsAtRoot (dir ++ rest) = startsAtRoot dir := by
  cases dir with
  | nil => exact absurd rfl h
  | cons c dir =>
    by_cases hc : c = '/'
    · subst hc
      rfl
    · rw [List.cons_append, startsAtRoot, startsAtRoot]
      · simpa using hc
      · simpa using hc

theorem asParent_concat {c : Char} (h : c ≠ '/') :
    asParent (dir ++ [c]) = dir ++ [c] ++ ['/'] := by
  unfold asParent
  rw [List.getLast?_concat]
  split
  next hnone => cases hnone
  next hslash =>
    cases hslash
    exact absurd rfl h
  next => rfl

/-- A directory that is not the working directory gets a slash behind it, and begins at the root if
it did before. -/
theorem asParent_cases (dir : List Char) :
    dir = [] ∧ asParent dir = [] ∨
      ∃ base, asParent dir = base ++ ['/'] ∧ startsAtRoot (base ++ ['/']) = startsAtRoot dir := by
  rcases List.eq_nil_or_concat dir with rfl | ⟨base, c, rfl⟩
  · exact .inl ⟨rfl, rfl⟩
  · rw [List.concat_eq_append]
    by_cases hc : c = '/'
    · subst hc
      exact .inr ⟨base, by simp [asParent], rfl⟩
    · exact .inr ⟨base ++ [c], asParent_concat hc, startsAtRoot_append (by simp)⟩

/-- Paths of names in one directory differ in the last part only, and start at the same place. -/
theorem exists_parts_join (work : Path) :
    ∃ above : List String, ∀ name : String, '/' ∉ name.toList → name ≠ "" →
      parts (join work name) = above ++ [name] ∧ isAbsolute (join work name) = isAbsolute work := by
  -- In the working directory a name is the whole path; anywhere else a slash stands in front of it.
  rcases asParent_cases work.toList with ⟨hwork, hparent⟩ | ⟨base, hparent, hroot⟩
  · refine ⟨[], fun name hclean _ => ?_⟩
    have hjoin : join work name = name := by
      rw [join_of_not_mem hclean, hparent]
      exact String.empty_append
    rw [hjoin, isAbsolute_of_not_mem hclean, parts, List.splitOn_eq_singleton hclean, isAbsolute,
      hwork]
    exact ⟨congrArg (· :: []) String.ofList_toList, rfl⟩
  · refine ⟨(base.splitOn '/').map String.ofList, fun name hclean hne => ?_⟩
    have hjoin : (join work name).toList = base ++ '/' :: name.toList := by
      rw [join_of_not_mem hclean, hparent, String.toList_append, String.toList_ofList,
        List.append_assoc, List.singleton_append]
    constructor
    · rw [parts, hjoin, List.splitOn_append_cons_self, List.splitOn_eq_singleton hclean,
        List.map_append]
      exact congrArg (_ ++ [·]) String.ofList_toList
    · have hslash : base ++ '/' :: name.toList = base ++ ['/'] ++ name.toList := by simp
      rw [isAbsolute, hjoin, hslash, startsAtRoot_append (by simp), hroot, isAbsolute]

theorem withoutFinalSlashes_concat {above : List String} (h : name ≠ "") :
    withoutFinalSlashes (above ++ [name]) = above ++ [name] := by
  simp [withoutFinalSlashes, h]

end Path

/-! ## Folders -/

theorem Text.exists_digit (n : Nat) : ∃ d ds, (Text.decimal n).toList = ds ++ [d] ∧
    Decimal.isDigit d = true := by
  rw [decimal, String.toList_ofList]
  rcases List.eq_nil_or_concat (Decimal.digits n) with hnil | ⟨ds, d, hd⟩
  · exact absurd hnil (digits_ne_nil n)
  · rw [List.concat_eq_append] at hd
    exact ⟨d, ds, hd, isDigit_of_mem_digits (n := n) (by rw [hd]; simp)⟩

theorem Text.not_mem_decimal {n : Nat} {c : Char} (hc : Decimal.isDigit c = false) :
    c ∉ (Text.decimal n).toList := by
  rw [decimal, String.toList_ofList]
  exact fun h => ne_of_isDigit (isDigit_of_mem_digits h) hc rfl

namespace Seat

variable {work : Path} {s s' : Seat}

/-- The name of a directory has no slash in it. -/
theorem folder_clean (s : Seat) : '/' ∉ s.folder.toList := by
  have hservice : '/' ∉ s.role.service.toList := by cases s.role <;> decide
  have hdash : '/' ∉ "-".toList := by decide
  simp only [folder, Port.text, String.toList_append, List.mem_append, not_or]
  exact ⟨⟨hservice, hdash⟩, Text.not_mem_decimal (by decide)⟩

/-- The name of a directory has no meaning of its own. -/
theorem folder_proper (s : Seat) : s.folder ≠ "" ∧ s.folder ≠ "." ∧ s.folder ≠ ".." := by
  have hdash : '-' ∈ s.folder.toList := by simp [folder]
  refine ⟨?_, ?_, ?_⟩
  all_goals
    intro h
    rw [h] at hdash
    exact absurd hdash (by decide)

/-- The name of a directory tells the program and the port. -/
theorem folder_inj (h : s.folder = s'.folder) : s = s' := by
  obtain ⟨role, port⟩ := s
  obtain ⟨role', port'⟩ := s'
  have hchars := congrArg String.toList h
  simp only [folder, String.toList_append] at hchars
  cases role with
  | circuit =>
    cases role' with
    | circuit => rw [Port.text_inj (String.toList_injective (List.append_cancel_left hchars))]
    | forwarder => simp [Role.service] at hchars
  | forwarder =>
    cases role' with
    | circuit => simp [Role.service] at hchars
    | forwarder => rw [Port.text_inj (String.toList_injective (List.append_cancel_left hchars))]

end Seat

/-! ## Paths -/

section Paths

variable {work : Path} {s s' : Seat}

/-- The directory of a program, in the directory of all pairs. -/
def Seat.directory (work : Path) (s : Seat) : Path := Path.join work s.folder

/-- The programs of a pair, with their ports. -/
def pairSeats (circuit forwarder : Port) : List Seat :=
  [⟨.circuit, circuit⟩, ⟨.forwarder, forwarder⟩]

/-- What a pair has in the directory of all pairs, each as a program with what stands behind the
path of its directory: the directory itself, where the program keeps its pid, and where the
forwarder has its configuration. -/
def pairInsides (circuit forwarder : Port) : List (Seat × String) := [
  (⟨.circuit, circuit⟩, ""), (⟨.circuit, circuit⟩, "/tor.pid"),
  (⟨.forwarder, forwarder⟩, ""), (⟨.forwarder, forwarder⟩, "/privoxy.pid"),
  (⟨.forwarder, forwarder⟩, "/privoxy.conf")]

/-- The paths of the directories and files of a pair. -/
def pairPaths (work : Path) (circuit forwarder : Port) : List Path :=
  (pairInsides circuit forwarder).map fun (s, rest) => s.directory work ++ rest

theorem Seat.directory_eq (work : Path) (s : Seat) :
    s.directory work = String.ofList (Path.asParent work.toList) ++ s.folder :=
  Path.join_of_not_mem s.folder_clean

/-- The path of a directory ends in a digit. -/
theorem Seat.exists_digit (work : Path) (s : Seat) :
    ∃ front d, (s.directory work).toList = front ++ [d] ∧ Text.Decimal.isDigit d = true := by
  obtain ⟨d, ds, hdigits, hd⟩ := Text.exists_digit s.port.toNat
  rw [directory_eq, folder, Port.text, String.toList_append, String.toList_append, hdigits,
    ← List.append_assoc, ← List.append_assoc]
  exact ⟨_, d, rfl, hd⟩

/-- What is in the directory of a program has a slash in front of its name. -/
theorem Seat.join_directory {name : String} (h : '/' ∉ name.toList) :
    Path.join (s.directory work) name = s.directory work ++ "/" ++ name := by
  obtain ⟨front, d, hfront, hd⟩ := s.exists_digit work
  have hparent : Path.asParent (s.directory work).toList = (s.directory work).toList ++ ['/'] := by
    rw [hfront]
    exact Path.asParent_concat (Text.ne_of_isDigit hd (by decide))
  rw [Path.join_of_not_mem h, hparent, String.ofList_append, String.ofList_toList]

/-- What stands behind the name of a directory: nothing, or the way to something in it. -/
def IsInside (rest : List Char) : Prop := rest = [] ∨ ∃ way, rest = '/' :: way

/-- A name is told from the path behind it. -/
theorem inside_inj {a b x y : List Char} (ha : '/' ∉ a) (hb : '/' ∉ b) (hx : IsInside x)
    (hy : IsInside y) (h : a ++ x = b ++ y) : a = b ∧ x = y := by
  -- The name ends in front of the first slash.
  have hname : ∀ {l r : List Char}, '/' ∉ l → IsInside r → (l ++ r).takeWhile (· ≠ '/') = l := by
    intro l r hl hr
    have hall : ∀ c ∈ l, decide (c ≠ '/') = true := by
      intro c hc
      exact decide_eq_true fun hslash => hl (hslash ▸ hc)
    rw [List.takeWhile_append_of_pos hall]
    rcases hr with rfl | ⟨way, rfl⟩ <;> simp
  have hab : a = b := by rw [← hname ha hx, h, hname hb hy]
  subst hab
  exact ⟨rfl, List.append_cancel_left h⟩

/-- The directory of a program tells the program and the port, and so does the path of anything in
it. -/
theorem Seat.directory_append_inj {x y : String} (hx : IsInside x.toList) (hy : IsInside y.toList)
    (h : s.directory work ++ x = s'.directory work ++ y) : s = s' ∧ x = y := by
  rw [directory_eq, directory_eq, String.append_assoc, String.append_assoc,
    String.append_right_inj] at h
  have hchars := congrArg String.toList h
  rw [String.toList_append, String.toList_append] at hchars
  obtain ⟨hfolder, hrest⟩ := inside_inj s.folder_clean s'.folder_clean hx hy hchars
  exact ⟨folder_inj (String.toList_injective hfolder), String.toList_injective hrest⟩

/-- Two pairs with different ports have no seat in common. -/
theorem ne_of_mem_pairSeats {c f c' f' : Port} (hc : c ≠ c') (hf : f ≠ f')
    (hs : s ∈ pairSeats c f) (hs' : s' ∈ pairSeats c' f') : s ≠ s' := by
  rintro rfl
  simp only [pairSeats, List.mem_cons, List.not_mem_nil, or_false] at hs hs'
  rcases hs with rfl | rfl
  · rcases hs' with h | h
    · exact hc (congrArg Seat.port h)
    · exact nomatch congrArg Seat.role h
  · rcases hs' with h | h
    · exact nomatch congrArg Seat.role h
    · exact hf (congrArg Seat.port h)

theorem isInside_of_mem_pairInsides {c f : Port} : ∀ i ∈ pairInsides c f, IsInside i.2.toList := by
  simp [pairInsides, IsInside]

/-- Two pairs with different ports have nothing in common. -/
theorem nodup_pairPaths (work : Path) {c f c' f' : Port} (hc : c ≠ c') (hf : f ≠ f') :
    (pairPaths work c f ++ pairPaths work c' f').Nodup := by
  have hinside : ∀ i ∈ pairInsides c f ++ pairInsides c' f', IsInside i.2.toList :=
    List.forall_mem_append.mpr ⟨isInside_of_mem_pairInsides, isInside_of_mem_pairInsides⟩
  have hnodup : (pairInsides c f ++ pairInsides c' f').Nodup := by
    simp [pairInsides, hc, hf]
  rw [pairPaths, pairPaths, ← List.map_append]
  refine List.Nodup.map_on (fun i hi j hj hij => ?_) hnodup
  obtain ⟨hseat, hrest⟩ := Seat.directory_append_inj (hinside i hi) (hinside j hj) hij
  exact Prod.ext hseat hrest

end Paths

/-! ## Places -/

/-- Whatever else is in a tree, the names of the directories of two programs are in one directory:
none of the two is the other, nor in the other. -/
theorem Seat.places_apart {t : FileTree} {work : Path} {s s' : Seat} {x x' : FileTree.Target}
    (hne : s ≠ s') (h : t.resolveName (s.directory work) = .ok x)
    (h' : t.resolveName (s'.directory work) = .ok x') : ¬ x.place <+: x'.place := by
  obtain ⟨above, habove⟩ := Path.exists_parts_join work
  have hplace : ∀ {s : Seat} {x}, t.resolveName (s.directory work) = .ok x →
      ∃ q mode, FileTree.Way t .follow FileTree.maxLinks (t.start work) above
        (.found q (.directory mode)) ∧ x.place = q ++ [s.folder] := by
    intro s x hs
    obtain ⟨hparts, hroot⟩ := habove s.folder s.folder_clean s.folder_proper.1
    have hway := (FileTree.resolveParts_eq_ok_iff.mp hs).2
    rw [directory, hparts, Path.withoutFinalSlashes_concat s.folder_proper.1, FileTree.start, hroot]
      at hway
    exact hway.of_snoc rfl s.folder_proper
  obtain ⟨q, mode, hway, hx⟩ := hplace h
  obtain ⟨q', mode', hway', hx'⟩ := hplace h'
  cases hway.unique hway'
  -- Both are names in one directory, so if one place is above the other, the names are the same.
  rw [hx, hx']
  intro hprefix
  have hsame := hprefix.eq_of_length (by simp)
  exact hne (folder_inj (List.cons.inj (List.append_cancel_left hsame)).1)

end OnionPool
