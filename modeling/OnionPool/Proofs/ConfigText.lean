import OnionPool.Proofs.TextCuts
import OnionPool.Proxy.Layout
import OnionPool.Proxy.Readback

/-!
# The configuration as a sequence of lines

A rendered configuration is taken apart again: into the lines that it was made of, and from them
into the backends.

## Structure

- Decimals: a number that is written is read back.
- Lines: a text of ended lines has exactly these lines.
- Layouts: no line of a layout contains a line break, so the lines of the rendered text are those of
  the layout; and of these lines only those of the backends are read as backends.
-/

namespace OnionPool

/-! ## Decimals -/

namespace Text

/-- Every digit of a number is an ASCII digit. -/
theorem isDigit_of_mem_digits {n : Nat} {c : Char} (h : c ∈ Decimal.digits n) :
    Decimal.isDigit c = true := by
  have hc : c.isDigit = true := Nat.isDigit_of_mem_toDigits (by decide) (by decide) h
  simp only [Char.isDigit, Bool.and_eq_true, decide_eq_true_eq] at hc
  simp only [Decimal.isDigit, Bool.and_eq_true, decide_eq_true_eq]
  exact ⟨hc.1, hc.2⟩

/-- A digit is none of the characters outside the range of digits. -/
theorem ne_of_isDigit {c d : Char} (hc : Decimal.isDigit c = true)
    (hd : Decimal.isDigit d = false) : c ≠ d := by
  rintro rfl
  rw [hc] at hd
  cases hd

theorem digits_ne_nil (n : Nat) : Decimal.digits n ≠ [] := Nat.toDigits_ne_nil

/-- The digits of a number are read as that number. -/
theorem value_digits (n : Nat) : Decimal.value 0 (Decimal.digits n) = n :=
  Nat.ofDigitChars_ten_toDigits

theorem dropPlus_digits (n : Nat) : Decimal.dropPlus (Decimal.digits n) = Decimal.digits n := by
  unfold Decimal.dropPlus
  split
  next rest h =>
    have hplus : '+' ∈ Decimal.digits n := by rw [h]; exact List.mem_cons_self ..
    exact absurd (isDigit_of_mem_digits hplus) (by decide)
  next => rfl

/-- A number that is written is read back. -/
theorem read?_digits {n bound : Nat} (h : n < bound) :
    Decimal.read? bound (Decimal.digits n) = some n := by
  have hall : (Decimal.digits n).all Decimal.isDigit = true :=
    List.all_eq_true.mpr fun c hc => isDigit_of_mem_digits hc
  simp only [Decimal.read?, dropPlus_digits, value_digits]
  rw [if_pos ⟨digits_ne_nil n, hall, h⟩]

end Text

/-- A port that is written is read back. -/
theorem Port.read?_digits (p : Port) : Port.read? (Text.Decimal.digits p.toNat) = some p := by
  have hp : p.toNat < portBound := p.toNat_lt
  rw [Port.read?, Text.read?_digits hp, Option.map_some, UInt16.ofNat_toNat]

namespace Text

/-! ## Lines -/

/-- A line that does not end in a carriage return keeps its end. -/
theorem dropReturn_of_not_mem {line : List Char} (h : '\r' ∉ line) : dropReturn line = line := by
  unfold dropReturn
  split
  next rest hrev =>
    have hmem : '\r' ∈ line.reverse := by rw [hrev]; exact List.mem_cons_self ..
    exact absurd (List.mem_reverse.mp hmem) h
  next => rfl

/-- Lines that are all ended are split off one by one, and nothing is left behind the last one. -/
theorem splitOn_ended {ls : List (List Char)} (h : ∀ l ∈ ls, '\n' ∉ l) :
    (ls.flatMap (· ++ ['\n'])).splitOn '\n' = ls ++ [[]] := by
  -- Each ended line is split off in front; what is left after the last one is empty.
  induction ls with
  | nil => rfl
  | cons l ls ih =>
    have hl : l.splitOn '\n' = [l] := List.splitOn_eq_singleton (h l (List.mem_cons_self ..))
    rw [List.flatMap_cons, List.append_assoc, List.singleton_append,
      List.splitOn_append_cons_self, hl, ih fun m hm => h m (List.mem_cons_of_mem _ hm)]
    rfl

/-- Pieces with something behind them are lines that were ended. -/
theorem go_append (ls : List (List Char)) {rest : List (List Char)} (h : rest ≠ []) :
    lines.go (ls ++ rest) = ls.map dropReturn ++ lines.go rest := by
  induction ls with
  | nil => rfl
  | cons l ls ih =>
    -- Something follows the first piece, so it is a line that was ended.
    obtain ⟨next, more, hnext⟩ :=
      List.exists_cons_of_ne_nil (List.append_ne_nil_of_right_ne_nil ls h)
    rw [List.map_cons, List.cons_append, List.cons_append, ← ih, hnext, lines.go]

/-- The lines behind a line feed do not depend on what stands in front of it. -/
theorem lines_append (s t : List Char) :
    lines (s ++ '\n' :: t) = (s.splitOn '\n').map dropReturn ++ lines t := by
  unfold lines
  rw [List.splitOn_append_cons_self, go_append _ (List.splitOn_ne_nil _ t)]

/-- A text of ended lines without line breaks has exactly these lines. -/
theorem lines_ended {ls : List (List Char)} (h : ∀ l ∈ ls, '\n' ∉ l ∧ '\r' ∉ l) :
    lines (ls.flatMap (· ++ ['\n'])) = ls := by
  unfold lines
  rw [splitOn_ended fun l hl => (h l hl).1, go_append ls (List.cons_ne_nil _ _)]
  have hlast : lines.go [[]] = [] := rfl
  rw [hlast, List.append_nil]
  calc ls.map dropReturn = ls.map id :=
        List.map_congr_left fun l hl => dropReturn_of_not_mem (h l hl).2
    _ = ls := List.map_id ls

/-! ## Trimming -/

/-- Trimming at the end stops at a character that is not blank. -/
theorem trimEnd_append {c : Char} (s rest : List Char) (hc : isBlank c = false) :
    trimEnd (s ++ c :: rest) = s ++ c :: trimEnd rest := by
  simp only [trimEnd, List.reverse_append, List.reverse_cons, List.append_assoc,
    List.dropWhile_append, List.singleton_append]
  split
  next h => simp [List.isEmpty_iff.mp h, hc]
  next => simp

/-- Trimming at the end leaves nothing, or a text with the same front. -/
theorem trimEnd_cons (b : Char) (rest : List Char) :
    trimEnd (b :: rest) = [] ∨ ∃ t, trimEnd (b :: rest) = b :: t := by
  -- Trimming at the end keeps a prefix, which is empty or has the same first character.
  obtain ⟨t, ht⟩ : trimEnd (b :: rest) <+: b :: rest := by
    rw [← List.reverse_suffix, trimEnd, List.reverse_reverse]
    exact List.dropWhile_suffix isBlank
  cases h : trimEnd (b :: rest) with
  | nil => exact .inl rfl
  | cons d r =>
    rw [h, List.cons_append] at ht
    rw [(List.cons.inj ht).1]
    exact .inr ⟨r, rfl⟩

/-- Nothing is trimmed in front of a character that is not blank. -/
theorem trim_cons {c : Char} (s : List Char) (hc : isBlank c = false) :
    trim (c :: s) = trimEnd (c :: s) := by
  simp [trim, trimStart, hc]

/-- A blank in front of a text does not outlast trimming. -/
theorem trim_cons_of_isBlank {c : Char} (s : List Char) (h : isBlank c = true) :
    trim (c :: s) = trim s := by
  simp [trim, trimStart, h]

/-- No digit is blank. -/
theorem isBlank_of_isDigit {c : Char} (hc : Decimal.isDigit c = true) : isBlank c = false := by
  simp only [Decimal.isDigit, Bool.and_eq_true, decide_eq_true_eq, Char.le_def,
    UInt32.le_iff_toNat_le] at hc
  have h1 : 48 ≤ c.toNat := hc.1
  have h2 : c.toNat ≤ 57 := hc.2
  simp only [isBlank, Bool.or_eq_false_iff, Bool.and_eq_false_iff, beq_eq_false_iff_ne,
    decide_eq_false_iff_not]
  omega

theorem isBlank_of_mem_digits {n : Nat} {c : Char} (h : c ∈ Decimal.digits n) :
    isBlank c = false :=
  isBlank_of_isDigit (isDigit_of_mem_digits h)

end Text

/-! ## The lines of a layout -/

namespace Proxy

/-- A line that begins, two blanks aside, with another character than the mark of a backend is no
backend. -/
theorem backendOfLine?_of_ne {c : Char} (rest : List Char) (hc : Text.isBlank c = false)
    (hs : 's' ≠ c) : backendOfLine? (' ' :: ' ' :: c :: rest) = none := by
  have htrim : Text.trim (' ' :: ' ' :: c :: rest) = c :: Text.trimEnd rest := by
    rw [Text.trim_cons_of_isBlank _ (by decide), Text.trim_cons_of_isBlank _ (by decide)]
    rw [Text.trim_cons _ hc]
    exact Text.trimEnd_append [] rest hc
  have hafter : Text.after? serverMark (c :: Text.trimEnd rest) = none := if_neg hs
  unfold backendOfLine?
  rw [htrim, hafter]
  rfl

namespace Layout

/-- A text without line breaks. -/
def IsLine (s : String) : Prop := '\n' ∉ s.toList ∧ '\r' ∉ s.toList
  deriving Decidable

theorem IsLine.append {s t : String} (hs : IsLine s) (ht : IsLine t) : IsLine (s ++ t) := by
  simp only [IsLine, String.toList_append, List.mem_append, not_or]
  exact ⟨⟨hs.1, ht.1⟩, ⟨hs.2, ht.2⟩⟩

theorem isLine_decimal (n : Nat) : IsLine (Text.decimal n) := by
  have hne : ∀ d, Text.Decimal.isDigit d = false → d ∉ (Text.decimal n).toList := by
    intro d hd hmem
    rw [Text.decimal, String.toList_ofList] at hmem
    exact Text.ne_of_isDigit (Text.isDigit_of_mem_digits hmem) hd rfl
  exact ⟨hne _ (by decide), hne _ (by decide)⟩

/-- A line that is none of the backends'. -/
def IsPlain (s : String) : Prop := IsLine s ∧ backendOfLine? s.toList = none
  deriving Decidable

/-- What a line begins with can say that it is plain, whatever follows. -/
theorem IsPlain.append {s t : String} (c : Char) (hs : IsLine s) (ht : IsLine t)
    (hfront : s.toList.take 3 = [' ', ' ', c]) (hc : Text.isBlank c = false) (hne : 's' ≠ c) :
    IsPlain (s ++ t) := by
  refine ⟨hs.append ht, ?_⟩
  rw [String.toList_append, ← List.take_append_drop 3 s.toList, hfront, List.append_assoc]
  exact backendOfLine?_of_ne _ hc hne

/-- All lines but those of the backends. -/
def fixedLines (l : Layout) : List String :=
  l.globalLines ++ [""] ++ defaultLines ++ [""] ++ l.statsPart ++ l.frontendLines ++ [""] ++ [
    "backend privoxies",
    "  balance " ++ l.balance.keyword,
    "  timeout http-keep-alive 3000",
    "  option forwardfor",
    "  option http-server-close",
    "  option http_proxy"]

/-- The lines of a layout are fixed ones, and then one line for each backend. -/
theorem lines_eq (l : Layout) : l.lines = l.fixedLines ++ l.backends.toList.map serverLine := by
  simp only [lines, fixedLines, backendLines, List.append_assoc]

theorem isPlain_of_mem_statsLines (port : Port) : ∀ s ∈ statsLines port, IsPlain s := by
  have hbind : IsPlain ("  bind            :" ++ port.text) :=
    .append 'b' (by decide) (isLine_decimal _) (by decide) (by decide) (by decide)
  simp only [statsLines, List.forall_mem_cons]
  exact ⟨by decide, hbind, by decide⟩

/-- None of the fixed lines is read as a backend. -/
theorem isPlain_of_mem_fixedLines (l : Layout) : ∀ s ∈ l.fixedLines, IsPlain s := by
  -- The lines with a number or a keyword in them; all others are fixed and can be decided.
  have hconn : IsPlain ("  maxconn " ++ Text.decimal l.maxConn.toNat) :=
    .append 'm' (by decide) (isLine_decimal _) (by decide) (by decide) (by decide)
  have hbind : IsPlain ("  bind *:" ++ l.port.text) :=
    .append 'b' (by decide) (isLine_decimal _) (by decide) (by decide) (by decide)
  have hbalance : IsPlain ("  balance " ++ l.balance.keyword) :=
    .append 'b' (by decide) (by cases l.balance <;> decide) (by decide) (by decide) (by decide)
  have hstats : ∀ s ∈ l.statsPart, IsPlain s := by
    unfold statsPart
    split
    next => simp
    next port _ =>
      intro s hs
      rcases List.mem_append.mp hs with hs | hs
      · exact isPlain_of_mem_statsLines port s hs
      · rw [List.mem_singleton.mp hs]; decide
  have hblank : ∀ s ∈ [""], IsPlain s := by decide
  have hdefault : ∀ s ∈ defaultLines, IsPlain s := by decide
  have hglobal : ∀ s ∈ l.globalLines, IsPlain s := by
    simp only [globalLines, List.forall_mem_cons]
    exact ⟨by decide, hconn, by simp⟩
  have hfrontend : ∀ s ∈ l.frontendLines, IsPlain s := by
    simp only [frontendLines, List.forall_mem_cons]
    exact ⟨by decide, hbind, by decide⟩
  simp only [fixedLines, List.forall_mem_append, List.forall_mem_cons]
  exact ⟨⟨⟨⟨⟨⟨⟨hglobal, by decide⟩, hdefault⟩, by decide⟩, hstats⟩, hfrontend⟩, by decide⟩,
    by decide, hbalance, by decide⟩

/-- The line of a backend is its mark, its port, and something after a blank. -/
theorem toList_serverLine (port : Port) :
    ∃ rest, (serverLine port).toList =
      ' ' :: ' ' :: (serverMark ++ (Text.Decimal.digits port.toNat ++ ' ' :: rest)) := by
  have hport : port.text.toList = Text.Decimal.digits port.toNat := String.toList_ofList
  have hfront : "  server privoxy-".toList = ' ' :: ' ' :: serverMark := by decide
  have haddress : " 127.0.0.1:".toList = ' ' :: "127.0.0.1:".toList := by decide
  have hline : (serverLine port).toList =
      "  server privoxy-".toList ++ port.text.toList ++ " 127.0.0.1:".toList ++ port.text.toList ++
        " check".toList := by
    unfold serverLine
    rw [String.toList_append, String.toList_append, String.toList_append, String.toList_append]
  rw [hline, hfront, haddress, hport]
  simp only [List.append_assoc, List.cons_append]
  exact ⟨_, rfl⟩

theorem isLine_serverLine (port : Port) : IsLine (serverLine port) :=
  .append (.append (.append (.append (by decide) (isLine_decimal _)) (by decide))
    (isLine_decimal _)) (by decide)

/-- The line of a backend is read as that backend. -/
theorem backendOfLine?_serverLine (port : Port) :
    backendOfLine? (serverLine port).toList = some port := by
  obtain ⟨rest, hline⟩ := toList_serverLine port
  have hdigits : ∀ c ∈ Text.Decimal.digits port.toNat, Text.isBlank c = false :=
    fun c hc => Text.isBlank_of_mem_digits hc
  have hne := Text.digits_ne_nil port.toNat
  -- The last digit is not blank, so trimming leaves the mark and the digits alone.
  have htrim : Text.trim (serverLine port).toList =
      serverMark ++ (Text.Decimal.digits port.toNat ++ Text.trimEnd (' ' :: rest)) := by
    obtain ⟨ds, d, hd⟩ := (List.eq_nil_or_concat _).resolve_left hne
    have hblank : Text.isBlank d = false := hdigits d (by rw [hd]; simp)
    have hmark : serverMark = 's' :: "erver privoxy-".toList := by decide
    rw [hline, Text.trim_cons_of_isBlank _ (by decide), Text.trim_cons_of_isBlank _ (by decide), hd,
      hmark, List.cons_append, Text.trim_cons _ (by decide)]
    simpa using Text.trimEnd_append ('s' :: ("erver privoxy-".toList ++ ds)) (' ' :: rest) hblank
  -- After the mark come the digits, and after them a blank.
  have hafter : Text.after? serverMark (Text.trim (serverLine port).toList) =
      some (Text.Decimal.digits port.toNat ++ Text.trimEnd (' ' :: rest)) :=
    Text.after?_eq_some_iff.mpr htrim
  have hend : ∀ c ∈ (Text.trimEnd (' ' :: rest)).head?, Text.isBlank c = true := by
    rcases Text.trimEnd_cons ' ' rest with h | ⟨t, h⟩
    · rw [h]; nofun
    · rw [h]; rintro c ⟨⟩; decide
  unfold backendOfLine?
  rw [hafter]
  change ((Text.words _).head?.bind Port.read?) = some port
  rw [Text.words_append hne hdigits hend]
  exact Port.read?_digits port

/-- What is rendered as a line has no line break in it. -/
theorem isLine_of_mem_lines (l : Layout) : ∀ s ∈ l.lines, IsLine s := by
  intro s hs
  rw [lines_eq] at hs
  rcases List.mem_append.mp hs with hs | hs
  · exact (isPlain_of_mem_fixedLines l s hs).1
  · obtain ⟨port, -, rfl⟩ := List.mem_map.mp hs
    exact isLine_serverLine port

/-- Lines without line breaks are the lines of the text that they make. -/
theorem lines_unlines {ls : List String} (h : ∀ s ∈ ls, IsLine s) :
    Text.lines (unlines ls).toList = ls.map String.toList := by
  have htext : (unlines ls).toList = (ls.map String.toList).flatMap (· ++ ['\n']) := by
    have hend : "\n".toList = ['\n'] := by decide
    simp only [unlines, String.toList_join, List.flatMap_map, String.toList_append, hend]
  rw [htext, Text.lines_ended]
  intro line hline
  obtain ⟨s, hs, rfl⟩ := List.mem_map.mp hline
  exact h s hs

/-- The lines of the rendered text are the lines that it was made of. -/
theorem lines_render (l : Layout) : Text.lines l.render.toList = l.lines.map String.toList :=
  lines_unlines (isLine_of_mem_lines l)

end Layout

/-- **Reading back**: of a rendered configuration exactly the backends are read, in ascending
order. -/
theorem renderedBackends_render (l : Layout) : renderedBackends l.render = l.backends.toList := by
  have hfixed : (l.fixedLines.map String.toList).filterMap backendOfLine? = [] := by
    rw [List.filterMap_eq_nil_iff]
    intro line hline
    obtain ⟨s, hs, rfl⟩ := List.mem_map.mp hline
    exact (l.isPlain_of_mem_fixedLines s hs).2
  -- Only the lines of the backends are read, each as its own port.
  have hservers : ((l.backends.toList.map Layout.serverLine).map String.toList).filterMap
      backendOfLine? = l.backends.toList := by
    have hread : backendOfLine? ∘ String.toList ∘ Layout.serverLine = some :=
      funext Layout.backendOfLine?_serverLine
    rw [List.map_map, List.filterMap_map, hread, List.filterMap_some]
  rw [renderedBackends, Layout.lines_render, Layout.lines_eq, List.map_append,
    List.filterMap_append, hfixed, hservers, List.nil_append]

end Proxy

end OnionPool
