import OnionPool.Text.Blank
import OnionPool.Text.Split

/-!
# First occurrences and words

What the functions that cut text find, said without the way in which they look for it: a text is cut
at the first occurrence of a mark, and the words of a text are those that it is made of.

## Structure

- First occurrences: a mark occurs for the first time behind a text exactly if it does not occur in
  that text together with the mark's own front.
- Words: `Spaced` relates a text to its words by putting it together from blanks and words.
-/

namespace OnionPool.Text

/-! ## First occurrences -/

section Cuts

variable {mark text before rest : List Char}

theorem after?_append (mark rest : List Char) : after? mark (mark ++ rest) = some rest :=
  after?_eq_some_iff.mpr rfl

/-- Nothing follows a mark that a text does not begin with. -/
theorem after?_eq_none_iff : after? mark text = none ↔ ¬ mark <+: text := by
  rw [Option.eq_none_iff_forall_ne_some]
  constructor
  · rintro h ⟨rest, rfl⟩
    exact h rest (after?_append mark rest)
  · intro h rest hafter
    exact h ⟨rest, (after?_eq_some_iff.mp hafter).symm⟩

/-- An occurrence that begins in front of another one ends in front of its last character. -/
theorem prefix_cons_append_iff {c : Char} :
    mark <+: c :: (before ++ mark ++ rest) ↔ mark <+: c :: (before ++ mark.dropLast) := by
  have hfront : c :: (before ++ mark.dropLast) <+: c :: (before ++ mark ++ rest) := by
    rw [List.cons_prefix_cons, List.append_assoc, List.prefix_append_right_inj]
    exact ⟨rfl, List.prefix_append_of_prefix mark.dropLast_prefix⟩
  constructor
  · intro h
    apply List.prefix_of_prefix_length_le h hfront
    simp only [List.length_cons, List.length_append, List.length_dropLast]
    omega
  · intro h
    exact h.trans hfront

/-- A text is cut at an occurrence if there is none before it, not even one that overlaps it. -/
theorem cutAt?_append (hne : mark ≠ []) (h : ¬ mark <:+: before ++ mark.dropLast) :
    cutAt? mark (before ++ mark ++ rest) = some (before, rest) := by
  induction before with
  | nil =>
    cases mark with
    | nil => exact absurd rfl hne
    | cons m ms =>
      have hafter := after?_append (m :: ms) rest
      rw [List.cons_append] at hafter
      rw [List.nil_append, List.cons_append, cutAt?, hafter]
  | cons c before ih =>
    rw [List.cons_append, List.infix_cons_iff, not_or] at h
    have hafter : after? mark (c :: (before ++ mark ++ rest)) = none :=
      after?_eq_none_iff.mpr fun hpre => h.1 (prefix_cons_append_iff.mp hpre)
    rw [List.cons_append, List.cons_append, cutAt?, hafter]
    simp only [ih h.2, Option.map_some]

/-- A text is cut at the first occurrence. -/
theorem not_infix_of_cutAt? (hne : mark ≠ []) (h : cutAt? mark text = some (before, rest)) :
    ¬ mark <:+: before ++ mark.dropLast := by
  -- The mark does not fit into what it would have in common with the rest.
  have hshort : ¬ mark <:+: mark.dropLast := by
    intro hin
    have hlength := hin.length_le
    have hpos := List.length_pos_iff.mpr hne
    rw [List.length_dropLast] at hlength
    omega
  induction text generalizing before with
  | nil =>
    rw [cutAt?, if_neg hne] at h
    cases h
  | cons c text ih =>
    rw [cutAt?] at h
    cases hafter : after? mark (c :: text) with
    | some r =>
      rw [hafter] at h
      cases h
      exact hshort
    | none =>
      rw [hafter] at h
      obtain ⟨⟨b, r⟩, hcut, hpair⟩ := Option.map_eq_some_iff.mp h
      cases hpair
      rw [after?_eq_none_iff, eq_of_cutAt? hcut, prefix_cons_append_iff] at hafter
      rw [List.cons_append, List.infix_cons_iff, not_or]
      exact ⟨hafter, ih hcut⟩

/-- A text is cut at the first occurrence of the mark, and only there. -/
theorem cutAt?_eq_some_iff (hne : mark ≠ []) :
    cutAt? mark text = some (before, rest) ↔
      text = before ++ mark ++ rest ∧ ¬ mark <:+: before ++ mark.dropLast := by
  constructor
  · intro h
    exact ⟨eq_of_cutAt? h, not_infix_of_cutAt? hne h⟩
  · rintro ⟨rfl, h⟩
    exact cutAt?_append hne h

/-- A text that cannot be cut is one in which the mark does not occur. -/
theorem cutAt?_eq_none_iff : cutAt? mark text = none ↔ ¬ mark <:+: text := by
  induction text with
  | nil =>
    rw [cutAt?, List.infix_nil]
    split
    next h => simp [h]
    next h => simp [h]
  | cons c text ih =>
    rw [cutAt?, List.infix_cons_iff, not_or, ← after?_eq_none_iff, ← ih]
    cases after? mark (c :: text) with
    | some r => simp
    | none => simp

/-- A mark of one character does not overlap itself. -/
theorem cutAt?_singleton_eq_some_iff {c : Char} :
    cutAt? [c] text = some (before, rest) ↔ text = before ++ c :: rest ∧ c ∉ before := by
  have hin : [c] <:+: before ++ [c].dropLast ↔ c ∈ before := by
    rw [List.dropLast_singleton, List.append_nil, List.mem_iff_append]
    constructor
    · rintro ⟨s, t, h⟩
      exact ⟨s, t, by rw [← h, List.append_assoc, List.singleton_append]⟩
    · rintro ⟨s, t, h⟩
      exact ⟨s, t, by rw [h, List.append_assoc, List.singleton_append]⟩
  rw [cutAt?_eq_some_iff (List.cons_ne_nil c []), hin, List.append_assoc, List.singleton_append]

/-- A mark of two characters that differ does not overlap itself either. -/
theorem cutAt?_pair_eq_some_iff {c d : Char} (hne : c ≠ d) :
    cutAt? [c, d] text = some (before, rest) ↔
      text = before ++ [c, d] ++ rest ∧ ¬ [c, d] <:+: before := by
  have hin : [c, d] <:+: before ++ [c, d].dropLast ↔ [c, d] <:+: before := by
    rw [show [c, d].dropLast = [c] from rfl, List.infix_concat_iff, or_iff_right]
    intro hend
    have hlast := hend.getLast (List.cons_ne_nil c [d])
    rw [List.getLast_concat] at hlast
    exact hne hlast.symm
  rw [cutAt?_eq_some_iff (List.cons_ne_nil c [d]), hin]

end Cuts

/-! ## Words -/

/-- A text is made of words, with blanks in front of them, between them and behind them. -/
inductive Spaced : List (List Char) → List Char → Prop
  | nil : Spaced [] []
  | blank {ws : List (List Char)} {s : List Char} {c : Char} (hc : isBlank c = true)
      (hs : Spaced ws s) : Spaced ws (c :: s)
  /-- A word ends at a blank or with the text. -/
  | word {ws : List (List Char)} {w s : List Char} (hne : w ≠ [])
      (hw : ∀ c ∈ w, isBlank c = false) (hend : ∀ c ∈ s.head?, isBlank c = true)
      (hs : Spaced ws s) : Spaced (w :: ws) (w ++ s)

theorem words_cons_of_isBlank {c : Char} (s : List Char) (hc : isBlank c = true) :
    words (c :: s) = words s := by
  rw [words, words.go, if_pos hc, if_pos rfl]
  rfl

theorem go_append_of_not_isBlank {s : List Char} (word rest : List Char)
    (h : ∀ c ∈ s, isBlank c = false) :
    words.go word (s ++ rest) = words.go (s.reverse ++ word) rest := by
  -- The word that is being read grows by each character that is not blank.
  induction s generalizing word with
  | nil => rfl
  | cons c s ih =>
    have hc := h c (List.mem_cons_self ..)
    rw [List.cons_append, words.go, hc, if_neg (by decide),
      ih (c :: word) fun d hd => h d (List.mem_cons_of_mem _ hd)]
    simp

/-- The first word of a text ends at the first blank, or with the text. -/
theorem words_append {w s : List Char} (hne : w ≠ []) (hw : ∀ c ∈ w, isBlank c = false)
    (hend : ∀ c ∈ s.head?, isBlank c = true) : words (w ++ s) = w :: words s := by
  have hrev : w.reverse ≠ [] := by simpa using hne
  rw [words, go_append_of_not_isBlank [] s hw, List.append_nil]
  cases s with
  | nil =>
    rw [words.go, if_neg hrev, List.reverse_reverse]
    rfl
  | cons c s =>
    have hc := hend c rfl
    rw [words.go, if_pos hc, if_neg hrev, List.reverse_reverse, words_cons_of_isBlank s hc]
    rfl

/-- What has been read of a word belongs to the first word of the rest. -/
theorem spaced_go {word : List Char} (s : List Char) (hword : ∀ c ∈ word, isBlank c = false) :
    Spaced (words.go word s) (word.reverse ++ s) := by
  -- By induction on the text, for whatever word is being read.
  induction s generalizing word with
  | nil =>
    rw [words.go]
    split
    next h =>
      rw [h]
      exact .nil
    next h => exact .word (by simpa using h) (by simpa using hword) (by simp) .nil
  | cons c s ih =>
    rw [words.go]
    split
    next hc =>
      have hs : Spaced (words.go [] s) (c :: s) := .blank hc (ih (by simp))
      split
      next h =>
        rw [h]
        exact hs
      next h => exact .word (by simpa using h) (by simpa using hword) (by simpa using hc) hs
    next hc =>
      have hcons : ∀ d ∈ c :: word, isBlank d = false := by
        rw [List.forall_mem_cons]
        exact ⟨by simpa using hc, hword⟩
      have hs := ih hcons
      rw [List.reverse_cons, List.append_assoc] at hs
      exact hs

/-- The words of a text are those that it is made of. -/
theorem words_eq_iff {ws : List (List Char)} {s : List Char} : words s = ws ↔ Spaced ws s := by
  constructor
  · rintro rfl
    exact spaced_go s (by simp)
  · intro h
    induction h with
    | nil => rfl
    | blank hc _ ih => rw [words_cons_of_isBlank _ hc, ih]
    | word hne hw hend _ ih => rw [words_append hne hw hend, ih]

end OnionPool.Text
