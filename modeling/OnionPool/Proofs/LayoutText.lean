import OnionPool.Proofs.ConfigText

/-!
# What the text of a configuration says

The text of a configuration says everything that it was made from, and says it once: two layouts
with the same text are the same, and the backends are read back from their own lines and from no
others.

## Structure

- Fields: the number or the keyword in a line is determined by the line.
- Sections: a section determines the fields that it shows, and where it ends. The section of the
  statistics page can be missing; it is told from the section behind it by its heading.
- Texts: the lines of a text are those of its layout, so the sections can be compared one by one.
-/

namespace OnionPool

/-! ## Fields -/

/-- A number is told by its digits. -/
theorem Text.decimal_inj {n m : Nat} (h : Text.decimal n = Text.decimal m) : n = m := by
  have hdigits : Decimal.digits n = Decimal.digits m := by
    rw [Text.decimal, Text.decimal] at h
    exact String.ofList_injective h
  calc n = Decimal.value 0 (Decimal.digits n) := (Text.value_digits n).symm
    _ = Decimal.value 0 (Decimal.digits m) := by rw [hdigits]
    _ = m := Text.value_digits m

theorem Port.text_inj {p q : Port} (h : p.text = q.text) : p = q :=
  UInt16.toNat_inj.mp (Text.decimal_inj h)

theorem Balance.keyword_inj {b c : Balance} (h : b.keyword = c.keyword) : b = c := by
  cases b <;> cases c <;> simp [keyword] at h ⊢

namespace Proxy

namespace Layout

variable {l m : Layout} {s t : List String}

/-! ## Sections -/

theorem globalLines_inj (h : l.globalLines = m.globalLines) : l.maxConn = m.maxConn := by
  simp only [globalLines, List.cons.injEq, String.append_right_inj, and_true, true_and] at h
  exact UInt32.toNat_inj.mp (Text.decimal_inj h)

theorem statsLines_inj {p q : Port} (h : statsLines p = statsLines q) : p = q := by
  simp only [statsLines, List.cons.injEq, String.append_right_inj, and_true, true_and] at h
  exact Port.text_inj h

theorem frontendLines_inj (h : l.frontendLines = m.frontendLines) : l.port = m.port := by
  simp only [frontendLines, List.cons.injEq, String.append_right_inj, and_true, true_and] at h
  exact Port.text_inj h

theorem backendLines_inj (h : l.backendLines = m.backendLines) : l.balance = m.balance := by
  simp only [backendLines, List.cons_append, List.cons.injEq, String.append_right_inj,
    true_and] at h
  exact Balance.keyword_inj h.1

/-- The section of the statistics page, or its absence, is told from the section behind it: that one
has another heading. -/
theorem statsPart_append_inj (h : l.statsPart ++ (l.frontendLines ++ s) =
    m.statsPart ++ (m.frontendLines ++ t)) :
    l.statsPort = m.statsPort ∧ l.frontendLines ++ s = m.frontendLines ++ t := by
  have hheading : "frontend rotating_proxies" ≠ "listen stats" := by decide
  unfold statsPart at h
  cases hl : l.statsPort with
  | none =>
    cases hm : m.statsPort with
    | none =>
      rw [hl, hm] at h
      exact ⟨rfl, h⟩
    | some q =>
      rw [hl, hm] at h
      exact absurd (List.cons.inj h).1 hheading
  | some p =>
    cases hm : m.statsPort with
    | none =>
      rw [hl, hm] at h
      exact absurd (List.cons.inj h).1.symm hheading
    | some q =>
      rw [hl, hm] at h
      obtain ⟨hpart, hrest⟩ := List.append_inj h rfl
      obtain rfl := statsLines_inj (List.append_cancel_right hpart)
      exact ⟨rfl, hrest⟩

/-! ## Texts -/

/-- A text has the lines of one layout only. -/
theorem lines_eq_of_render_eq (h : l.render = m.render) : l.lines = m.lines := by
  have hlines : l.lines.map String.toList = m.lines.map String.toList := by
    rw [← lines_render, ← lines_render, h]
  exact (List.map_inj_right fun _ _ => String.toList_injective).mp hlines

/-- The sections of a text are those of its layout, one after the other. -/
theorem sections_of_lines_eq (h : l.lines = m.lines) :
    l.globalLines = m.globalLines ∧ l.statsPort = m.statsPort ∧
      l.frontendLines = m.frontendLines ∧ l.backendLines = m.backendLines := by
  simp only [lines, List.append_assoc] at h
  obtain ⟨hglobal, h⟩ := List.append_inj h rfl
  obtain ⟨hstats, h⟩ := statsPart_append_inj (List.append_cancel_left (List.append_cancel_left
    (List.append_cancel_left h)))
  obtain ⟨hfrontend, h⟩ := List.append_inj h rfl
  exact ⟨hglobal, hstats, hfrontend, List.append_cancel_left h⟩

/-- The lines of a text that are read as backends: one for each backend, in ascending order. -/
theorem serverLines_of_render (l : Layout) :
    (Text.lines l.render.toList).filter (fun line => (backendOfLine? line).isSome) =
      l.backends.toList.map fun p => (serverLine p).toList := by
  have hfixed : (l.fixedLines.map String.toList).filter
      (fun line => (backendOfLine? line).isSome) = [] := by
    rw [List.filter_eq_nil_iff]
    intro line hline
    obtain ⟨s, hs, rfl⟩ := List.mem_map.mp hline
    rw [(l.isPlain_of_mem_fixedLines s hs).2]
    exact Bool.false_ne_true
  have hservers : ∀ line ∈ (l.backends.toList.map serverLine).map String.toList,
      (backendOfLine? line).isSome = true := by
    intro line hline
    rw [List.map_map] at hline
    obtain ⟨p, -, rfl⟩ := List.mem_map.mp hline
    exact Option.isSome_of_eq_some (backendOfLine?_serverLine p)
  rw [lines_render, lines_eq, List.map_append, List.filter_append, hfixed,
    List.filter_eq_self.mpr hservers, List.nil_append, List.map_map]
  rfl

/-- **Rendering loses nothing**: two configurations have the same text exactly if they agree on the
port, on the port of the statistics page or its absence, on the most connections, on the balance and
on the set of backends. -/
theorem rendering_loses_nothing (l m : Layout) :
    l.render = m.render ↔
      l.port = m.port ∧ l.statsPort = m.statsPort ∧ l.maxConn = m.maxConn ∧
        l.balance = m.balance ∧ ∀ p, p ∈ l.backends ↔ p ∈ m.backends := by
  constructor
  · intro h
    obtain ⟨hglobal, hstats, hfrontend, hbackend⟩ := sections_of_lines_eq (lines_eq_of_render_eq h)
    refine ⟨frontendLines_inj hfrontend, hstats, globalLines_inj hglobal,
      backendLines_inj hbackend, ?_⟩
    -- What is read back from the text is the set of either layout.
    have hread : l.backends.toList = m.backends.toList := by
      rw [← renderedBackends_render, ← renderedBackends_render, h]
    intro p
    rw [← PortSet.mem_toList, hread, PortSet.mem_toList]
  · rintro ⟨hport, hstats, hconn, hbalance, hbackends⟩
    have hlayout : l = m := by
      cases l
      cases m
      simp only [mk.injEq]
      exact ⟨hport, hstats, hconn, hbalance, PortSet.ext hbackends⟩
    rw [hlayout]

end Layout

/-- **Reading back**: whatever the other settings are, and in whatever order and however often the
backends are given, they are read back from the text, each of them once and in ascending order; and
the lines that are read as backends are theirs alone. -/
theorem backends_are_read_back (l : Layout) (given : List Port) :
    let text := { l with backends := .ofList given }.render
    (∀ p, p ∈ renderedBackends text ↔ p ∈ given) ∧
      (renderedBackends text).Pairwise (· < ·) ∧
      (Text.lines text.toList).filter (fun line => (backendOfLine? line).isSome) =
        (renderedBackends text).map fun p => (Layout.serverLine p).toList := by
  intro text
  have hread : renderedBackends text = (PortSet.ofList given).toList :=
    renderedBackends_render { l with backends := .ofList given }
  refine ⟨fun p => ?_, ?_, ?_⟩
  · rw [hread, PortSet.mem_toList, PortSet.mem_ofList]
  · rw [hread]
    exact (PortSet.ofList given).ascending
  · rw [hread]
    exact Layout.serverLines_of_render { l with backends := .ofList given }

end Proxy

end OnionPool
