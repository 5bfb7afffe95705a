import OnionPool.Log.Format
import OnionPool.Proofs.TextCuts

/-!
# Headings of lines

Each program's format is given by what its headings look like. Reading a line undoes the heading,
whatever the message is; a line that has none passes through whole; and in either case the message
is the end of the line.

## Structure

- Headings: `Heading` relates a line to the entry that it stands for, with one rule for each form
  of a heading.
- Cuts: where the brackets and the mark between heading and message are found.
- Reading: reading agrees with the rules, and leaves a line alone to which no rule applies.
-/

namespace OnionPool.Log

/-! ## Headings -/

/-- A line with the heading of a program, and the entry that it stands for. -/
inductive Heading : Format → List Char → Entry → Prop
  /-- Tor: the first brackets that are closed hold the level, and the message stands behind them. -/
  | tor {before level message : List Char} (hbefore : '[' ∉ before) (hlevel : ']' ∉ level) :
      Heading .tor (before ++ '[' :: (level ++ ']' :: message))
        ⟨.ofName level, Text.trimStart message⟩
  /-- Privoxy: the fourth word in front of the first mark is the level. -/
  | privoxy {head level message : List Char} {words : List (List Char)} (hhead : ¬ mark <:+: head)
      (hwords : Text.Spaced words head) (hlevel : words[3]? = some level) :
      Heading .privoxy (head ++ mark ++ message) ⟨.ofName level, message⟩
  /-- HAProxy: the line begins with the level in brackets, and the message stands behind the next
  mark. -/
  | haproxy {blanks level head message : List Char} (hblanks : ∀ c ∈ blanks, Text.isBlank c = true)
      (hlevel : ']' ∉ level) (hhead : ¬ mark <:+: head) :
      Heading .haproxy (blanks ++ '[' :: (level ++ ']' :: (head ++ mark ++ message)))
        ⟨.ofName level, message⟩
  /-- HAProxy, with no mark behind the brackets: the message stands right behind them. -/
  | haproxyShort {blanks level message : List Char}
      (hblanks : ∀ c ∈ blanks, Text.isBlank c = true) (hlevel : ']' ∉ level)
      (hmessage : ¬ mark <:+: message) :
      Heading .haproxy (blanks ++ '[' :: (level ++ ']' :: message))
        ⟨.ofName level, Text.trimStart message⟩

/-- Whether a line has a heading of a program. -/
def IsHeaded (f : Format) (line : List Char) : Prop := ∃ e, Heading f line e

/-! ## Cuts -/

section Cuts

variable {line level head message rest : List Char}

/-- A line is cut at the first mark in it. -/
theorem cutAt?_mark_eq_some_iff :
    Text.cutAt? mark line = some (head, message) ↔
      line = head ++ mark ++ message ∧ ¬ mark <:+: head :=
  Text.cutAt?_pair_eq_some_iff (by decide)

theorem bracketed?_cons (rest : List Char) : bracketed? ('[' :: rest) = Text.cutAt? [']'] rest :=
  rfl

/-- A line is taken apart at its first bracket and the one that closes it. -/
theorem bracketed?_eq_some_iff :
    bracketed? line = some (level, rest) ↔
      ∃ before, line = before ++ '[' :: (level ++ ']' :: rest) ∧ '[' ∉ before ∧ ']' ∉ level := by
  unfold bracketed?
  constructor
  · intro h
    obtain ⟨⟨before, behind⟩, hopen, hclose⟩ := Option.bind_eq_some_iff.mp h
    rw [Text.cutAt?_singleton_eq_some_iff] at hopen hclose
    obtain ⟨rfl, hbefore⟩ := hopen
    obtain ⟨rfl, hlevel⟩ := hclose
    exact ⟨before, rfl, hbefore, hlevel⟩
  · rintro ⟨before, rfl, hbefore, hlevel⟩
    apply Option.bind_eq_some_iff.mpr
    exact ⟨(before, level ++ ']' :: rest), Text.cutAt?_singleton_eq_some_iff.mpr ⟨rfl, hbefore⟩,
      Text.cutAt?_singleton_eq_some_iff.mpr ⟨rfl, hlevel⟩⟩

end Cuts

/-! ## Reading -/

namespace Format

variable {f : Format} {line : List Char} {e : Entry}

theorem trimStart_blanks {blanks : List Char} (rest : List Char)
    (h : ∀ c ∈ blanks, Text.isBlank c = true) :
    Text.trimStart (blanks ++ '[' :: rest) = '[' :: rest := by
  rw [Text.trimStart, List.dropWhile_append_of_pos h]
  rfl

/-- Reading undoes a heading. -/
theorem read_of_heading (h : Heading f line e) : f.read line = e := by
  cases h with
  | @tor before level message hbefore hlevel =>
    have hbracketed : bracketed? (before ++ '[' :: (level ++ ']' :: message)) =
        some (level, message) := bracketed?_eq_some_iff.mpr ⟨before, rfl, hbefore, hlevel⟩
    rw [read, readTor, hbracketed]
  | @privoxy head level message words hhead hwords hlevel =>
    have hcut : Text.cutAt? mark (head ++ mark ++ message) = some (head, message) :=
      cutAt?_mark_eq_some_iff.mpr ⟨rfl, hhead⟩
    rw [read, readPrivoxy, hcut]
    simp only [Text.words_eq_iff.mpr hwords, hlevel]
  | @haproxy blanks level head message hblanks hlevel hhead =>
    have hclose : Text.cutAt? [']'] (level ++ ']' :: (head ++ mark ++ message)) =
        some (level, head ++ mark ++ message) :=
      Text.cutAt?_singleton_eq_some_iff.mpr ⟨rfl, hlevel⟩
    have hcut : Text.cutAt? mark (head ++ mark ++ message) = some (head, message) :=
      cutAt?_mark_eq_some_iff.mpr ⟨rfl, hhead⟩
    rw [read, readHaproxy, trimStart_blanks _ hblanks]
    simp only [bracketed?_cons, hclose, hcut]
  | @haproxyShort blanks level message hblanks hlevel hmessage =>
    have hclose : Text.cutAt? [']'] (level ++ ']' :: message) = some (level, message) :=
      Text.cutAt?_singleton_eq_some_iff.mpr ⟨rfl, hlevel⟩
    have hcut : Text.cutAt? mark message = none := Text.cutAt?_eq_none_iff.mpr hmessage
    rw [read, readHaproxy, trimStart_blanks _ hblanks]
    simp only [bracketed?_cons, hclose, hcut]

/-- A line that begins, blanks aside, with closed brackets has a heading of HAProxy. -/
theorem isHeaded_haproxy {level rest inside : List Char}
    (hstart : Text.trimStart line = '[' :: inside)
    (hclose : Text.cutAt? [']'] inside = some (level, rest)) : IsHeaded .haproxy line := by
  obtain ⟨rfl, hlevel⟩ := Text.cutAt?_singleton_eq_some_iff.mp hclose
  have hline : line = line.takeWhile Text.isBlank ++ '[' :: (level ++ ']' :: rest) := by
    rw [← hstart]
    exact (List.takeWhile_append_dropWhile).symm
  have hblanks : ∀ c ∈ line.takeWhile Text.isBlank, Text.isBlank c = true :=
    List.all_eq_true.mp List.all_takeWhile
  cases hcut : Text.cutAt? mark rest with
  | none =>
    rw [hline]
    exact ⟨_, .haproxyShort hblanks hlevel (Text.cutAt?_eq_none_iff.mp hcut)⟩
  | some parts =>
    obtain ⟨rfl, hhead⟩ := cutAt?_mark_eq_some_iff.mp hcut
    rw [hline]
    exact ⟨_, .haproxy hblanks hlevel hhead⟩

/-- A line is taken apart only at a heading. -/
theorem read_of_not_headed (h : ¬ IsHeaded f line) : f.read line = .unmarked line := by
  -- Wherever the parser finds its marks, there is a heading.
  cases f with
  | plain => rfl
  | tor =>
    cases hbracketed : bracketed? line with
    | none => rw [read, readTor, hbracketed]
    | some parts =>
      obtain ⟨before, rfl, hbefore, hlevel⟩ := bracketed?_eq_some_iff.mp hbracketed
      exact absurd ⟨_, .tor hbefore hlevel⟩ h
  | privoxy =>
    cases hcut : Text.cutAt? mark line with
    | none => rw [read, readPrivoxy, hcut]
    | some parts =>
      obtain ⟨rfl, hhead⟩ := cutAt?_mark_eq_some_iff.mp hcut
      cases hword : (Text.words parts.1)[3]? with
      | none =>
        rw [read, readPrivoxy, hcut]
        simp only [hword]
      | some level => exact absurd ⟨_, .privoxy hhead (Text.words_eq_iff.mp rfl) hword⟩ h
  | haproxy =>
    rw [read, readHaproxy]
    split
    next inside hstart =>
      rw [bracketed?_cons]
      cases hclose : Text.cutAt? [']'] inside with
      | none => rfl
      | some parts => exact absurd (isHeaded_haproxy hstart hclose) h
    next => rfl

end Format

/-- What stands behind brackets is the end of the line. -/
theorem suffix_of_bracketed (before level rest : List Char) :
    rest <:+ before ++ '[' :: (level ++ ']' :: rest) := by
  have hclose : rest <:+ level ++ ']' :: rest :=
    (List.suffix_cons _ _).trans (List.suffix_append _ _)
  exact (hclose.trans (List.suffix_cons _ _)).trans (List.suffix_append _ _)

/-- The message of a headed line is its end. -/
theorem Heading.message_suffix {f : Format} {line : List Char} {e : Entry} (h : Heading f line e) :
    e.message <:+ line := by
  cases h with
  | tor | haproxyShort => exact (List.dropWhile_suffix _).trans (suffix_of_bracketed _ _ _)
  | privoxy => exact List.suffix_append _ _
  | haproxy => exact (List.suffix_append _ _).trans (suffix_of_bracketed _ _ _)

/-- **Headings are undone**: a line is read as the entry that its heading says, and one without a
heading is read whole, at `info`; no line is read as anything else. The message is always the end of
the line. -/
theorem headings_are_undone (f : Format) (line : List Char) :
    (∀ e, f.read line = e ↔ Heading f line e ∨ ¬ IsHeaded f line ∧ e = .unmarked line) ∧
      (f.read line).message <:+ line := by
  have hread : Heading f line (f.read line) ∨
      ¬ IsHeaded f line ∧ f.read line = .unmarked line := by
    by_cases h : IsHeaded f line
    · obtain ⟨e, he⟩ := h
      rw [Format.read_of_heading he]
      exact .inl he
    · exact .inr ⟨h, Format.read_of_not_headed h⟩
  refine ⟨fun e => ⟨?_, ?_⟩, ?_⟩
  · rintro rfl
    exact hread
  · rintro (he | ⟨h, rfl⟩)
    · exact Format.read_of_heading he
    · exact Format.read_of_not_headed h
  · rcases hread with he | ⟨-, he⟩
    · exact he.message_suffix
    · rw [he]
      exact List.suffix_rfl

/-- A message can contain the mark that stands in front of it. -/
example : Format.haproxy.read "[WARNING]  (1234) : config : missing timeouts".toList =
    ⟨.warn, "config : missing timeouts".toList⟩ := by decide

end OnionPool.Log
