import OnionPool.Port.Basic

/-!
# Sets of ports

A finite set of ports, kept in descending order so that a port above all members is put in front of
them at once. Two sets with the same members are equal, so what is computed from a set cannot depend
on the order in which it was filled.
-/

namespace OnionPool

/-- A finite set of ports, with its members in descending order. -/
structure PortSet where
  descending : List Port
  sorted : descending.Pairwise (· > ·)
  deriving DecidableEq

namespace PortSet

/-- A list with a port put in its place among descending ports; a port that is there already is not
put a second time. -/
def insertSorted (p : Port) : List Port → List Port
  | [] => [p]
  | q :: rest => if q < p then p :: q :: rest else if p = q then q :: rest
    else q :: insertSorted p rest

theorem mem_insertSorted {p x : Port} {l : List Port} :
    x ∈ insertSorted p l ↔ x = p ∨ x ∈ l := by
  induction l with
  | nil => simp [insertSorted]
  | cons q rest ih =>
    unfold insertSorted
    split
    · simp
    · split
      · rename_i h; simp [h]
      · simp only [List.mem_cons, ih]
        exact or_left_comm

theorem pairwise_insertSorted {p : Port} {l : List Port} (h : l.Pairwise (· > ·)) :
    (insertSorted p l).Pairwise (· > ·) := by
  induction l with
  | nil => simp [insertSorted]
  | cons q rest ih =>
    rw [List.pairwise_cons] at h
    unfold insertSorted
    split
    · rename_i hqp
      rw [List.pairwise_cons, List.pairwise_cons]
      refine ⟨fun x hx => ?_, h⟩
      rcases List.mem_cons.1 hx with rfl | hx
      · exact hqp
      · exact UInt16.lt_trans (h.1 x hx) hqp
    · split
      · exact List.pairwise_cons.2 h
      · rename_i h1 h2
        rw [List.pairwise_cons]
        refine ⟨fun x hx => ?_, ih h.2⟩
        rcases mem_insertSorted.1 hx with rfl | hx
        · rcases UInt16.lt_or_lt_of_ne h2 with h3 | h3
          · exact h3
          · exact absurd h3 h1
        · exact h.1 x hx

/-- Whether a port stands among descending ports: the search ends at the first smaller one. -/
def holds (p : Port) : List Port → Bool
  | [] => false
  | q :: rest => if q < p then false else q = p || holds p rest

theorem holds_iff {p : Port} {l : List Port} (h : l.Pairwise (· > ·)) :
    holds p l = true ↔ p ∈ l := by
  induction l with
  | nil => simp [holds]
  | cons q rest ih =>
    rw [List.pairwise_cons] at h
    unfold holds
    split
    · rename_i hqp
      simp only [Bool.false_eq_true, List.mem_cons, false_iff, not_or]
      refine ⟨fun hp => ?_, fun hp => ?_⟩
      · exact UInt16.lt_irrefl p (hp ▸ hqp)
      · exact UInt16.lt_irrefl p (UInt16.lt_trans (h.1 p hp) hqp)
    · rw [Bool.or_eq_true, decide_eq_true_iff, ih h.2, List.mem_cons, eq_comm]

/-- The members in ascending order. -/
def toList (s : PortSet) : List Port := s.descending.reverse

theorem ascending (s : PortSet) : s.toList.Pairwise (· < ·) :=
  List.pairwise_reverse.2 s.sorted

def empty : PortSet := ⟨[], .nil⟩

def insert (s : PortSet) (p : Port) : PortSet :=
  ⟨insertSorted p s.descending, pairwise_insertSorted s.sorted⟩

def erase (s : PortSet) (p : Port) : PortSet :=
  ⟨s.descending.filter (· ≠ p), s.sorted.filter _⟩

def contains (s : PortSet) (p : Port) : Bool := holds p s.descending

def size (s : PortSet) : Nat := s.descending.length

/-- The set of the ports of a list, in whatever order and however often they stand there. -/
def ofList (ports : List Port) : PortSet := ports.foldl insert empty

instance : Membership Port PortSet := ⟨fun s p => p ∈ s.descending⟩

instance (p : Port) (s : PortSet) : Decidable (p ∈ s) :=
  inferInstanceAs (Decidable (p ∈ s.descending))

theorem mem_def {s : PortSet} {p : Port} : p ∈ s ↔ p ∈ s.descending := Iff.rfl

@[simp] theorem mem_toList {s : PortSet} {p : Port} : p ∈ s.toList ↔ p ∈ s := by
  simp [toList, mem_def]

@[simp] theorem length_toList (s : PortSet) : s.toList.length = s.size := by
  simp [toList, size]

@[simp] theorem not_mem_empty (p : Port) : ¬ p ∈ empty := List.not_mem_nil

@[simp] theorem mem_insert {s : PortSet} {p x : Port} : x ∈ s.insert p ↔ x = p ∨ x ∈ s :=
  mem_insertSorted

@[simp] theorem mem_erase {s : PortSet} {p x : Port} : x ∈ s.erase p ↔ x ≠ p ∧ x ∈ s := by
  simp [mem_def, erase, and_comm]

theorem contains_iff {s : PortSet} {p : Port} : s.contains p = true ↔ p ∈ s := holds_iff s.sorted

/-- Descending lists with the same members are equal. -/
theorem eq_of_pairwise_of_mem_iff {l m : List Port} (hl : l.Pairwise (· > ·))
    (hm : m.Pairwise (· > ·)) (h : ∀ x, x ∈ l ↔ x ∈ m) : l = m := by
  induction l generalizing m with
  | nil =>
    cases m with
    | nil => rfl
    | cons y m => exact absurd ((h y).2 (by simp)) (by simp)
  | cons x l ih =>
    cases m with
    | nil => exact absurd ((h x).1 (by simp)) (by simp)
    | cons y m =>
      rw [List.pairwise_cons] at hl hm
      have hxy : x = y := by
        rcases List.mem_cons.1 ((h x).1 (by simp)) with hx | hx
        · exact hx
        · rcases List.mem_cons.1 ((h y).2 (by simp)) with hy | hy
          · exact hy.symm
          · exact absurd (UInt16.lt_trans (hm.1 x hx) (hl.1 y hy)) (UInt16.lt_irrefl x)
      subst hxy
      congr 1
      refine ih hl.2 hm.2 fun z => ⟨fun hz => ?_, fun hz => ?_⟩
      · rcases List.mem_cons.1 ((h z).1 (by simp [hz])) with rfl | hz'
        · exact absurd (hl.1 z hz) (UInt16.lt_irrefl z)
        · exact hz'
      · rcases List.mem_cons.1 ((h z).2 (by simp [hz])) with rfl | hz'
        · exact absurd (hm.1 z hz) (UInt16.lt_irrefl z)
        · exact hz'

/-- A set is determined by its members. -/
@[ext] theorem ext {s t : PortSet} (h : ∀ p, p ∈ s ↔ p ∈ t) : s = t := by
  obtain ⟨l, hl⟩ := s
  obtain ⟨m, hm⟩ := t
  obtain rfl : l = m := eq_of_pairwise_of_mem_iff hl hm h
  rfl

theorem mem_foldl_insert {ports : List Port} {s : PortSet} {p : Port} :
    p ∈ ports.foldl insert s ↔ p ∈ ports ∨ p ∈ s := by
  induction ports generalizing s with
  | nil => simp
  | cons q ports ih =>
    rw [List.foldl_cons, ih, mem_insert, List.mem_cons, or_assoc]
    exact or_left_comm

@[simp] theorem mem_ofList {ports : List Port} {p : Port} : p ∈ ofList ports ↔ p ∈ ports := by
  simp [ofList, mem_foldl_insert]

end PortSet

end OnionPool
