import OnionPool.Log.Stream
import OnionPool.Proofs.EncodedText

/-!
# Output is cut at line feeds and nowhere else

What a program has written is logged line by line. No line is lost, none is logged together with
another one, and none is cut apart, whatever bytes the lines consist of; and what was written as
text is logged as that text.

## Structure

- Pieces: two outputs with a line feed between them have the pieces of both. Between them there can
  be one piece more, an empty one, which is no line.
- Lines: the line that a piece is read as, when the piece is the encoding of a text.
- Texts: lines that are joined by line breaks of either kind are logged one by one.
-/

namespace OnionPool.Log

/-! ## Pieces -/

/-- The line that a piece is read as, if it is not blank. -/
def lineOf? (piece : List UInt8) : Option (List Char) :=
  Option.guard (fun line => Text.trim line ≠ []) (Text.Utf8.decode (dropReturns piece))

/-- Lines are read from the pieces, each by itself. -/
theorem outputLines_eq (bytes : List UInt8) :
    outputLines bytes = (pieces bytes).filterMap lineOf? := by
  rw [outputLines, ← List.filterMap_eq_filter, List.filterMap_map]
  rfl

/-- An empty piece is no line. -/
theorem lineOf?_nil : lineOf? [] = none := by
  have hdecode : Text.Utf8.decode [] = [] := Text.Utf8.decode_encode []
  rw [lineOf?, show dropReturns [] = [] from rfl, hdecode]
  rfl

theorem go_feed (piece rest : List UInt8) :
    pieces.go piece (lineFeed :: rest) = piece.reverse :: pieces rest := if_pos rfl

theorem go_other {b : UInt8} (piece rest : List UInt8) (h : b ≠ lineFeed) :
    pieces.go piece (b :: rest) = pieces.go (b :: piece) rest := if_neg h

/-- The last piece, if it is not empty; if it is, there is no line lost. -/
theorem filterMap_go_nil (piece : List UInt8) :
    (pieces.go piece []).filterMap lineOf? = (lineOf? piece.reverse).toList := by
  by_cases h : piece = []
  · rw [h, List.reverse_nil, lineOf?_nil]
    rfl
  · rw [pieces.go, if_neg h]
    cases hline : lineOf? piece.reverse <;> simp [hline]

/-- A line feed parts the lines before it from those behind it. -/
theorem filterMap_go_append (piece a b : List UInt8) :
    (pieces.go piece (a ++ lineFeed :: b)).filterMap lineOf? =
      (pieces.go piece a).filterMap lineOf? ++ (pieces b).filterMap lineOf? := by
  induction a generalizing piece with
  | nil =>
    -- In front of the line feed there is a piece even if nothing stands there.
    rw [List.nil_append, go_feed, filterMap_go_nil, List.filterMap_cons]
    cases lineOf? piece.reverse <;> rfl
  | cons c a ih =>
    by_cases hc : c = lineFeed
    · rw [hc, List.cons_append, go_feed, go_feed, List.filterMap_cons, List.filterMap_cons, pieces,
        ih]
      cases lineOf? piece.reverse <;> rfl
    · rw [List.cons_append, go_other _ _ hc, go_other _ _ hc, ih]

/-- Two outputs with a line feed between them have the lines of both. -/
theorem outputLines_append (a b : List UInt8) :
    outputLines (a ++ lineFeed :: b) = outputLines a ++ outputLines b := by
  rw [outputLines_eq, outputLines_eq, outputLines_eq]
  exact filterMap_go_append [] a b

/-- An output without a line feed is one piece. -/
theorem outputLines_of_not_mem {bytes : List UInt8} (h : lineFeed ∉ bytes) :
    outputLines bytes = (lineOf? bytes).toList := by
  have hgo : ∀ piece, (pieces.go piece bytes).filterMap lineOf? =
      (lineOf? (piece.reverse ++ bytes)).toList := by
    induction bytes with
    | nil =>
      intro piece
      rw [filterMap_go_nil, List.append_nil]
    | cons b bytes ih =>
      intro piece
      rw [List.mem_cons, not_or] at h
      rw [go_other _ _ (Ne.symm h.1), ih h.2, List.reverse_cons, List.append_assoc]
      rfl
  rw [outputLines_eq]
  exact hgo []

/-- The end of a line. -/
inductive Break where
  | feed
  | returnFeed
  deriving DecidableEq

def Break.chars : Break → List Char
  | feed => ['\n']
  | returnFeed => ['\r', '\n']

/-- A carriage return at the end of a piece is dropped. -/
theorem lineOf?_return (bytes : List UInt8) :
    lineOf? (bytes ++ [carriageReturn]) = lineOf? bytes := by
  have hdrop : dropReturns (bytes ++ [carriageReturn]) = dropReturns bytes := by
    simp [dropReturns]
  rw [lineOf?, hdrop]
  rfl

/-- A line break of either kind ends the piece in front of it, whatever follows. -/
theorem outputLines_ended {bytes : List UInt8} (h : lineFeed ∉ bytes) (b : Break)
    (rest : List UInt8) :
    outputLines (bytes ++ (Text.Utf8.encode b.chars ++ rest)) =
      (lineOf? bytes).toList ++ outputLines rest := by
  cases b with
  | feed =>
    show outputLines (bytes ++ lineFeed :: rest) = _
    rw [outputLines_append, outputLines_of_not_mem h]
  | returnFeed =>
    have hreturn : lineFeed ∉ bytes ++ [carriageReturn] := by
      rw [List.mem_append, not_or]
      exact ⟨h, by decide⟩
    show outputLines (bytes ++ ([carriageReturn] ++ lineFeed :: rest)) = _
    rw [← List.append_assoc, outputLines_append, outputLines_of_not_mem hreturn, lineOf?_return]

/-- What stands behind the last line break, or the whole output without one, is ended by the end of
the output, or by a line break in front of it. -/
theorem outputLines_last {bytes : List UInt8} (h : lineFeed ∉ bytes) (final : Option Break) :
    outputLines (bytes ++ Text.Utf8.encode (final.elim [] Break.chars)) =
      (lineOf? bytes).toList := by
  cases final with
  | none =>
    show outputLines (bytes ++ []) = _
    rw [List.append_nil, outputLines_of_not_mem h]
  | some b =>
    have hended := outputLines_ended h b []
    rw [List.append_nil] at hended
    rw [Option.elim_some, hended]
    exact List.append_nil _

/-! ## Lines -/

/-- Carriage returns are looked for at the end only. -/
theorem dropReturns_append {bytes rest : List UInt8} (h : carriageReturn ∉ rest) (hne : rest ≠ []) :
    dropReturns (bytes ++ rest) = bytes ++ rest := by
  obtain ⟨init, b, rfl⟩ : ∃ init b, rest = init ++ [b] :=
    ⟨_, _, (List.dropLast_concat_getLast hne).symm⟩
  have hb : b ≠ carriageReturn := by
    rintro rfl
    exact h (List.mem_append_right _ (List.mem_singleton_self _))
  rw [dropReturns, ← List.append_assoc, List.reverse_append]
  show (List.dropWhile _ (b :: _)).reverse = _
  rw [List.dropWhile_cons_of_neg (by simpa using hb)]
  simp

/-- A text that can be logged as one line: it has no line feed in it and no carriage return at its
end, and it is not blank. -/
structure IsWhole (line : List Char) : Prop where
  unbroken : '\n' ∉ line
  unreturned : line.getLast? ≠ some '\r'
  visible : Text.trim line ≠ []

namespace IsWhole

variable {line : List Char}

theorem lineFeed_not_mem (h : IsWhole line) : lineFeed ∉ Text.Utf8.encode line :=
  fun hmem => h.unbroken (Text.Utf8.mem_of_mem_encode hmem (by decide))

/-- The encoding of a whole line does not end in a carriage return either. -/
theorem dropReturns_encode (h : IsWhole line) :
    dropReturns (Text.Utf8.encode line) = Text.Utf8.encode line := by
  have hne : line ≠ [] := by
    rintro rfl
    exact h.visible rfl
  obtain ⟨init, c, rfl⟩ : ∃ init c, line = init ++ [c] :=
    ⟨_, _, (List.dropLast_concat_getLast hne).symm⟩
  have hc : c ≠ '\r' := by
    rintro rfl
    exact h.unreturned List.getLast?_concat
  -- The last byte is one of the last character, and a carriage return is a character of its own.
  rw [Text.Utf8.encode_append]
  apply dropReturns_append
  · intro hmem
    exact hc (List.mem_singleton.mp (Text.Utf8.mem_of_mem_encode hmem (by decide))).symm
  · simp [Text.Utf8.encode]

/-- The encoding of a whole line is read as that line. -/
theorem lineOf?_encode (h : IsWhole line) : lineOf? (Text.Utf8.encode line) = some line := by
  rw [lineOf?, h.dropReturns_encode, Text.Utf8.decode_encode, Option.guard, if_pos]
  exact decide_eq_true h.visible

end IsWhole

/-! ## Texts -/

/-- Lines one after the other, with a line break between each two of them; `breaks n` is the one
behind line `n`. -/
def joined (breaks : Nat → Break) : List (List Char) → List Char
  | [] => []
  | [line] => line
  | line :: next :: rest =>
    line ++ (breaks 0).chars ++ joined (fun n => breaks (n + 1)) (next :: rest)

/-- Lines that were joined are logged one by one, with or without a line break at the end. -/
theorem outputLines_joined {lines : List (List Char)} (h : ∀ line ∈ lines, IsWhole line)
    (breaks : Nat → Break) (final : Option Break) :
    outputLines (Text.Utf8.encode (joined breaks lines ++ final.elim [] Break.chars)) = lines := by
  induction lines generalizing breaks with
  | nil =>
    have hlast := outputLines_last (List.not_mem_nil (a := lineFeed)) final
    rw [lineOf?_nil] at hlast
    exact hlast
  | cons line lines ih =>
    have hline := h line (List.mem_cons_self ..)
    cases lines with
    | nil =>
      rw [joined, Text.Utf8.encode_append, outputLines_last hline.lineFeed_not_mem,
        hline.lineOf?_encode]
      rfl
    | cons next rest =>
      rw [joined, List.append_assoc, List.append_assoc, Text.Utf8.encode_append,
        Text.Utf8.encode_append, outputLines_ended hline.lineFeed_not_mem, hline.lineOf?_encode,
        ih fun l hl => h l (List.mem_cons_of_mem _ hl)]
      rfl

/-- **Framing is exact**: two outputs with a line feed between them are logged like the one and then
the other, whatever bytes they consist of. And lines that were joined by line feeds, or by carriage
returns with line feeds, are read as these very lines, without a replacement character that was not
there, and are logged in order, with or without a line break at the end. -/
theorem framing_is_exact (classify : List Char → Entry) :
    (∀ a b, classified classify (a ++ lineFeed :: b) =
      classified classify a ++ classified classify b) ∧
    ∀ lines : List (List Char), (∀ line ∈ lines, IsWhole line) →
      ∀ (breaks : Nat → Break) (final : Option Break),
        let bytes := Text.Utf8.encode (joined breaks lines ++ final.elim [] Break.chars)
        outputLines bytes = lines ∧ classified classify bytes = lines.map classify := by
  refine ⟨fun a b => ?_, fun lines h breaks final => ?_⟩
  · rw [classified, outputLines_append, List.map_append]
    rfl
  · have hlines := outputLines_joined h breaks final
    exact ⟨hlines, by rw [classified, hlines]⟩

/-- A line with a heading and a character outside ASCII, and one without either. -/
def headedThenPlain : List (List Char) := ["[warn] é".toList, "no heading".toList]

/-- Both are logged, though a carriage return stands between them and a line feed behind them. -/
theorem framing_is_exact_in_mixed_breaks :
    (∀ line ∈ headedThenPlain, IsWhole line) ∧
      classified Format.tor.read (Text.Utf8.encode
        (joined (fun _ => .returnFeed) headedThenPlain ++ (some Break.feed).elim [] Break.chars)) =
          [⟨.warn, ['é']⟩, .unmarked "no heading".toList] := by
  have hwhole : ∀ line ∈ headedThenPlain, IsWhole line := by
    simp only [headedThenPlain, List.forall_mem_cons]
    exact ⟨⟨by decide, by decide, by decide⟩, ⟨by decide, by decide, by decide⟩, by simp⟩
  refine ⟨hwhole, ?_⟩
  rw [((framing_is_exact Format.tor.read).2 headedThenPlain hwhole (fun _ => .returnFeed)
    (some .feed)).2]
  decide

end OnionPool.Log
