import Mathlib.Data.List.TakeWhile
import Mathlib.Data.Nat.Digits.Defs
import OnionPool.Proofs.ConfigText

/-!
# Numbers in text

Which texts denote a number, said without the way in which they are read: blanks, perhaps a plus
sign, and a row of digits whose places count from the end. Reading a trimmed text finds exactly the
number that it denotes, unless that is too large.

## Structure

- Trimming: what is left when the blanks around a text are taken off, and that nothing else is lost.
- Numbers: `Denotes` relates a text to its number, and `read?_trim_eq_some_iff` says that reading
  agrees with it.
-/

namespace OnionPool.Text

/-! ## Trimming -/

section Trimming

variable {front s back : List Char}

theorem trimStart_of_solid (h : ∀ c ∈ s, isBlank c = false) : trimStart s = s := by
  cases s with
  | nil => rfl
  | cons c s => exact List.dropWhile_cons_of_neg (by simp [h c (List.mem_cons_self ..)])

theorem trimEnd_of_solid (h : ∀ c ∈ s, isBlank c = false) : trimEnd s = s := by
  have hrev : ∀ c ∈ s.reverse, isBlank c = false := fun c hc => h c (List.mem_reverse.mp hc)
  rw [trimEnd, ← trimStart, trimStart_of_solid hrev, List.reverse_reverse]

/-- White space at the end is cut off. -/
theorem trimEnd_append_of_blank (h : ∀ c ∈ back, isBlank c = true) :
    trimEnd (s ++ back) = trimEnd s := by
  have hrev : ∀ c ∈ back.reverse, isBlank c = true := fun c hc => h c (List.mem_reverse.mp hc)
  rw [trimEnd, List.reverse_append, List.dropWhile_append_of_pos hrev, trimEnd]

/-- What blanks are put around a text, trimming takes off again. -/
theorem trim_padded (hfront : ∀ c ∈ front, isBlank c = true)
    (hback : ∀ c ∈ back, isBlank c = true) : trim (front ++ s ++ back) = trim s := by
  have hstart : trimStart (front ++ s ++ back) = trimStart (s ++ back) := by
    rw [List.append_assoc, trimStart, List.dropWhile_append_of_pos hfront, trimStart]
  rw [trim, hstart, trimStart, List.dropWhile_append]
  split
  next h =>
    -- With nothing but blanks in between, the blanks behind are taken off in front already.
    have hnone : trimStart back = [] := List.dropWhile_eq_nil_iff.mpr hback
    have hblank : trimStart s = [] := List.isEmpty_iff.mp h
    rw [← trimStart, hnone, trim, hblank]
  next => exact trimEnd_append_of_blank hback

/-- Of a text without blanks trimming takes off what blanks are around it. -/
theorem trim_surrounded (hfront : ∀ c ∈ front, isBlank c = true)
    (hs : ∀ c ∈ s, isBlank c = false) (hback : ∀ c ∈ back, isBlank c = true) :
    trim (front ++ s ++ back) = s := by
  rw [trim_padded hfront hback, trim, trimStart_of_solid hs, trimEnd_of_solid hs]

/-- Trimming takes off nothing but blanks. -/
theorem exists_surrounding (s : List Char) : ∃ front back, s = front ++ trim s ++ back ∧
    (∀ c ∈ front, isBlank c = true) ∧ ∀ c ∈ back, isBlank c = true := by
  have hall : ∀ t : List Char, ∀ c ∈ t.takeWhile isBlank, isBlank c = true := fun t =>
    List.all_eq_true.mp List.all_takeWhile
  -- At either end the longest row of blanks is taken off.
  refine ⟨s.takeWhile isBlank, ((trimStart s).reverse.takeWhile isBlank).reverse, ?_, hall s,
    fun c hc => hall _ c (List.mem_reverse.mp hc)⟩
  have hend : trimStart s = trim s ++ ((trimStart s).reverse.takeWhile isBlank).reverse := by
    rw [trim, trimEnd, ← List.reverse_append, List.takeWhile_append_dropWhile,
      List.reverse_reverse]
  calc s = s.takeWhile isBlank ++ trimStart s := List.takeWhile_append_dropWhile.symm
    _ = s.takeWhile isBlank ++ trim s ++ ((trimStart s).reverse.takeWhile isBlank).reverse := by
        rw [List.append_assoc, ← hend]

end Trimming

/-! ## Numbers -/

/-- The number that a digit stands for. -/
def digitValue (c : Char) : Nat := c.toNat - '0'.toNat

/-- A text denotes a number: blanks aside, it is one or more ASCII digits, perhaps with a plus sign
in front. -/
inductive Denotes : List Char → Nat → Prop
  | row {front sign ds back : List Char} (hfront : ∀ c ∈ front, isBlank c = true)
      (hsign : sign = [] ∨ sign = ['+']) (hne : ds ≠ []) (hds : ∀ c ∈ ds, '0' ≤ c ∧ c ≤ '9')
      (hback : ∀ c ∈ back, isBlank c = true) :
      Denotes (front ++ (sign ++ ds) ++ back) (Nat.ofDigits 10 (ds.reverse.map digitValue))

section Numbers

variable {s sign ds : List Char} {n m bound : Nat}

/-- Reading digit by digit from the front gives each digit the weight of its place. -/
theorem value_eq_ofDigits (ds : List Char) :
    Decimal.value 0 ds = Nat.ofDigits 10 (ds.reverse.map digitValue) := by
  rw [Nat.ofDigits_eq_foldr, List.foldr_map, List.foldr_reverse, Decimal.value]
  congr 1
  funext n c
  exact Nat.add_comm _ _

theorem isDigit_iff {c : Char} : Decimal.isDigit c = true ↔ '0' ≤ c ∧ c ≤ '9' := by
  rw [Decimal.isDigit, Bool.and_eq_true, decide_eq_true_eq, decide_eq_true_eq]

/-- A text begins with a plus sign that is dropped, or nothing is dropped from it. -/
theorem exists_sign (s : List Char) :
    ∃ sign, (sign = [] ∨ sign = ['+']) ∧ s = sign ++ Decimal.dropPlus s := by
  unfold Decimal.dropPlus
  split
  next rest => exact ⟨['+'], .inr rfl, rfl⟩
  next => exact ⟨[], .inl rfl, rfl⟩

/-- One sign is dropped in front of the digits. -/
theorem dropPlus_append (hsign : sign = [] ∨ sign = ['+'])
    (hds : ∀ c ∈ ds, Decimal.isDigit c = true) : Decimal.dropPlus (sign ++ ds) = ds := by
  rcases hsign with rfl | rfl
  · show Decimal.dropPlus ds = ds
    unfold Decimal.dropPlus
    split
    next rest => exact absurd (hds '+' (List.mem_cons_self ..)) (by decide)
    next => rfl
  · rfl

/-- No blank is a digit, and the sign is none. -/
theorem isBlank_of_mem_numeral (hsign : sign = [] ∨ sign = ['+'])
    (hds : ∀ c ∈ ds, '0' ≤ c ∧ c ≤ '9') : ∀ c ∈ sign ++ ds, isBlank c = false := by
  intro c hc
  rcases List.mem_append.mp hc with hc | hc
  · rcases hsign with rfl | rfl
    · cases hc
    · rw [List.mem_singleton.mp hc]
      decide
  · exact isBlank_of_isDigit (isDigit_iff.mpr (hds c hc))

/-- Reading a text, blanks aside, finds the number that it denotes, and finds one only below the
bound. -/
theorem read?_trim_eq_some_iff :
    Decimal.read? bound (trim s) = some n ↔ Denotes s n ∧ n < bound := by
  unfold Decimal.read?
  constructor
  · intro h
    obtain ⟨⟨hne, hall, hbound⟩, hn⟩ := Option.ite_some_none_eq_some.mp h
    rw [List.all_eq_true] at hall
    obtain ⟨front, back, hs, hfront, hback⟩ := exists_surrounding s
    obtain ⟨sign, hsign, htrim⟩ := exists_sign (trim s)
    refine ⟨?_, hn ▸ hbound⟩
    rw [hs, htrim, ← hn, value_eq_ofDigits]
    exact .row hfront hsign hne (fun c hc => isDigit_iff.mp (hall c hc)) hback
  · rintro ⟨⟨hfront, hsign, hne, hds, hback⟩, hbound⟩
    -- The numeral has no blank in it, so trimming stops at both its ends.
    have hdigits := fun c hc => isDigit_iff.mpr (hds c hc)
    rw [trim_surrounded hfront (isBlank_of_mem_numeral hsign hds) hback,
      dropPlus_append hsign hdigits]
    simp only [value_eq_ofDigits]
    exact if_pos ⟨hne, List.all_eq_true.mpr hdigits, hbound⟩

/-- A text denotes at most one number. -/
theorem Denotes.unique (hn : Denotes s n) (hm : Denotes s m) : n = m := by
  -- Both numbers are what is read, if the bound is above both.
  have hreadn : Decimal.read? (n + m + 1) (trim s) = some n :=
    read?_trim_eq_some_iff.mpr ⟨hn, by omega⟩
  have hreadm : Decimal.read? (n + m + 1) (trim s) = some m :=
    read?_trim_eq_some_iff.mpr ⟨hm, by omega⟩
  exact Option.some.inj (hreadn.symm.trans hreadm)

end Numbers

end OnionPool.Text
