import OnionPool.Proofs.NumberText

/-!
# Reading backends line by line

A text is read for backends one line after the other, whatever text it is. What a line says does not
depend on the blanks around it, so it does not matter either whether a carriage return stands in
front of the line feed; and a line without the mark of a backend says nothing.

## Structure

- Lines: a carriage return at the end of a line and an empty last line are not read, so the pieces
  between the line feeds can be read as they are.
- Edits: `Edited` lists the edits that leave what is read as it is, at any number of lines.
-/

namespace OnionPool

/-! ## Lines -/

/-- Nothing but a carriage return is dropped from a line, and that is blank. -/
theorem Text.trim_dropReturn (line : List Char) : trim (dropReturn line) = trim line := by
  unfold dropReturn
  split
  next rest hrev =>
    have hline : line = [] ++ rest.reverse ++ ['\r'] := by
      rw [← List.reverse_reverse line, hrev, List.reverse_cons, List.nil_append]
    have hreturn : ∀ c ∈ ['\r'], isBlank c = true := List.forall_mem_singleton.mpr (by decide)
    rw [hline, trim_padded (List.forall_mem_nil _) hreturn]
  next => rfl

namespace Proxy

variable {line : List Char} {before after : List (List Char)}

/-- A line without the mark of a backend is none. -/
theorem backendOfLine?_eq_none (h : ¬ serverMark <+: Text.trim line) :
    backendOfLine? line = none := by
  rw [backendOfLine?, Text.after?_eq_none_iff.mpr h]
  rfl

/-- A backend is told from what is left of a line without the white space around it. -/
theorem backendOfLine?_congr {line' : List Char} (h : Text.trim line = Text.trim line') :
    backendOfLine? line = backendOfLine? line' := by
  rw [backendOfLine?, backendOfLine?, h]

/-- Lines are read like the pieces that they are made from. -/
theorem filterMap_go (pieces : List (List Char)) :
    (Text.lines.go pieces).filterMap backendOfLine? = pieces.filterMap backendOfLine? := by
  induction pieces with
  | nil => rfl
  | cons line rest ih =>
    cases rest with
    | nil =>
      rw [Text.lines.go]
      split
      next h =>
        rw [h]
        rfl
      next => rfl
    | cons next rest =>
      rw [Text.lines.go, List.filterMap_cons, List.filterMap_cons, ih,
        backendOfLine?_congr (Text.trim_dropReturn line)]

/-- A text is read piece by piece, from one line feed to the next. -/
theorem renderedBackends_eq (s : String) :
    renderedBackends s = (s.toList.splitOn '\n').filterMap backendOfLine? :=
  filterMap_go _

/-- A text is read line by line. -/
theorem renderedBackends_append (a b : String) :
    renderedBackends (a ++ "\n" ++ b) = renderedBackends a ++ renderedBackends b := by
  have htext : (a ++ "\n" ++ b).toList = a.toList ++ '\n' :: b.toList := by
    have hfeed : "\n".toList = ['\n'] := by decide
    rw [String.toList_append, String.toList_append, hfeed, List.append_assoc, List.singleton_append]
  rw [renderedBackends_eq, htext, List.splitOn_append_cons_self, List.filterMap_append,
    ← renderedBackends_eq, ← renderedBackends_eq]

/-! ## Edits -/

/-- Lines before and after edits that do not concern what the lines of backends say. -/
inductive Edited : List (List Char) → List (List Char) → Prop
  | nil : Edited [] []
  /-- The blanks in front of a line and behind it are others now, perhaps more or fewer. -/
  | respace {before after : List (List Char)} (line front back front' back' : List Char)
      (hfront : ∀ c ∈ front, Text.isBlank c = true) (hback : ∀ c ∈ back, Text.isBlank c = true)
      (hfront' : ∀ c ∈ front', Text.isBlank c = true)
      (hback' : ∀ c ∈ back', Text.isBlank c = true) (rest : Edited before after) :
      Edited ((front ++ line ++ back) :: before) ((front' ++ line ++ back') :: after)
  /-- A line without the mark of a backend is put in. -/
  | insert {before after : List (List Char)} (line : List Char)
      (foreign : ¬ serverMark <+: Text.trim line) (rest : Edited before after) :
      Edited before (line :: after)
  /-- A line without the mark of a backend is taken out. -/
  | remove {before after : List (List Char)} (line : List Char)
      (foreign : ¬ serverMark <+: Text.trim line) (rest : Edited before after) :
      Edited (line :: before) after

/-- Such edits leave the backends as they are. -/
theorem Edited.filterMap_eq (h : Edited before after) :
    before.filterMap backendOfLine? = after.filterMap backendOfLine? := by
  induction h with
  | nil => rfl
  | respace line front back front' back' hfront hback hfront' hback' rest ih =>
    have htrim : Text.trim (front ++ line ++ back) = Text.trim (front' ++ line ++ back') := by
      rw [Text.trim_padded hfront hback, Text.trim_padded hfront' hback']
    rw [List.filterMap_cons, List.filterMap_cons, backendOfLine?_congr htrim, ih]
  | insert line foreign rest ih =>
    rw [List.filterMap_cons_none (backendOfLine?_eq_none foreign), ih]
  | remove line foreign rest ih =>
    rw [List.filterMap_cons_none (backendOfLine?_eq_none foreign), ih]

/-- **Line by line**: of two texts with a line feed between them, whatever they are, first the one
is read and then the other. And a text is read as before when the blanks around any of its lines are
changed, a carriage return in front of a line feed being one of them, and when lines without the
mark of a backend are put in or taken out. -/
theorem backends_are_read_line_by_line :
    (∀ a b : String,
      renderedBackends (a ++ "\n" ++ b) = renderedBackends a ++ renderedBackends b) ∧
    ∀ s t : String, Edited (s.toList.splitOn '\n') (t.toList.splitOn '\n') →
      renderedBackends s = renderedBackends t := by
  refine ⟨renderedBackends_append, fun s t edited => ?_⟩
  rw [renderedBackends_eq, renderedBackends_eq, edited.filterMap_eq]

/-- A text with one backend. -/
def tidyText : String := "backend privoxies\n  server privoxy-30001 127.0.0.1:30001 check\n"

/-- The same backend with a wide blank in front of it, a carriage return behind it, and without a
line feed at the end of the text. -/
def untidyText : String :=
  "\u2003server privoxy-30001 127.0.0.1:30001 check \r\n# server privoxy-30002 is away"

theorem edited_untidyText :
    Edited (tidyText.toList.splitOn '\n') (untidyText.toList.splitOn '\n') := by
  have htidy : tidyText.toList.splitOn '\n' = ["backend privoxies".toList,
      [' ', ' '] ++ "server privoxy-30001 127.0.0.1:30001 check".toList ++ [], []] := by decide
  have huntidy : untidyText.toList.splitOn '\n' =
      [['\u2003'] ++ "server privoxy-30001 127.0.0.1:30001 check".toList ++ [' ', '\r'],
        "# server privoxy-30002 is away".toList] := by decide
  rw [htidy, huntidy]
  refine .remove _ (by decide) (.respace _ _ _ _ _ ?_ ?_ ?_ ?_ ?_)
  · exact List.all_eq_true.mp (by decide)
  · exact List.forall_mem_nil _
  · exact List.all_eq_true.mp (by decide)
  · exact List.all_eq_true.mp (by decide)
  · exact .remove _ (by decide) (.insert _ (by decide) .nil)

/-- The backend is read from either text. -/
theorem backends_are_read_line_by_line_in_untidy :
    renderedBackends tidyText = renderedBackends untidyText ∧
      renderedBackends tidyText = [30001] :=
  ⟨backends_are_read_line_by_line.2 tidyText untidyText edited_untidyText, by decide⟩

end Proxy

end OnionPool
