/-!
# Cutting text

Lines, first occurrences and leading parts of a text. Each function walks the text once, and the
lemmas say that nothing is lost.
-/

namespace OnionPool.Text

/-- The text after the leading part `start`, if the text begins with it. -/
def after? : (start text : List Char) → Option (List Char)
  | [], text => some text
  | _ :: _, [] => none
  | a :: start, c :: text => if a = c then after? start text else none

/-- The text before and after the first occurrence of `mark`. -/
def cutAt? (mark : List Char) : List Char → Option (List Char × List Char)
  | [] => if mark = [] then some ([], []) else none
  | c :: text =>
    match after? mark (c :: text) with
    | some rest => some ([], rest)
    | none => (cutAt? mark text).map fun (before, rest) => (c :: before, rest)

/-- A line that ended in a line feed, without the carriage return in front of it. -/
def dropReturn (line : List Char) : List Char :=
  match line.reverse with
  | '\r' :: rest => rest.reverse
  | _ => line

/-- The lines of a text: each line feed ends a line and takes a carriage return in front of it
along; what follows the last line feed is a line unless it is empty. -/
def lines (s : List Char) : List (List Char) := go (s.splitOn '\n')
where
  /-- All pieces but the last were ended by a line feed. -/
  go : List (List Char) → List (List Char)
    | [] => []
    | [last] => if last = [] then [] else [last]
    | line :: next :: rest => dropReturn line :: go (next :: rest)

/-- The letter in lower case, for `A` to `Z`. -/
def lowerLetter (c : Char) : Char :=
  if 'A' ≤ c ∧ c ≤ 'Z' then Char.ofNat (c.toNat + 32) else c

/-- The text in lower case, for comparison with keywords of ASCII letters. Full lower-casing reaches
an ASCII letter from outside ASCII only at `k` (from the Kelvin sign) and, with a combining dot
behind it, at `i`, so on keywords without `k` both agree. -/
def lower (s : List Char) : List Char := s.map lowerLetter

/-- What follows a leading part together with it is the text. -/
theorem after?_eq_some_iff {start text rest : List Char} :
    after? start text = some rest ↔ text = start ++ rest := by
  induction start generalizing text with
  | nil => simp [after?]
  | cons a start ih =>
    cases text with
    | nil => simp [after?]
    | cons c text =>
      by_cases h : a = c
      · subst h; simp [after?, ih]
      · simp only [after?, h, if_false, List.cons_append, List.cons.injEq]
        constructor
        · intro h'; cases h'
        · rintro ⟨hc, _⟩; exact absurd hc.symm h

/-- A cut loses only the mark. -/
theorem eq_of_cutAt? {mark text before rest : List Char}
    (h : cutAt? mark text = some (before, rest)) : text = before ++ mark ++ rest := by
  induction text generalizing before with
  | nil =>
    by_cases hm : mark = []
    · simp [cutAt?, hm] at h; simp [h, hm]
    · simp [cutAt?, hm] at h
  | cons c text ih =>
    unfold cutAt? at h
    split at h
    · rename_i r hr
      obtain ⟨rfl, rfl⟩ : [] = before ∧ r = rest := by simpa using h
      simpa using after?_eq_some_iff.1 hr
    · obtain ⟨⟨b, r⟩, hb, he⟩ := Option.map_eq_some_iff.1 h
      obtain ⟨rfl, rfl⟩ : c :: b = before ∧ r = rest := by simpa using he
      simp [ih hb]

end OnionPool.Text
