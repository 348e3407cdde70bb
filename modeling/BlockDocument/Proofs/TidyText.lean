import Mathlib.Data.List.Forall2
import BlockDocument.Proofs.Formatting

/-!
# The shape of formatted text

Formatted text is empty if the text before has blank characters only. Otherwise it is tidy
(`IsTidy`): it begins with a line that is not blank and ends with one line feed, no line has blanks
at its end, and its lines that are not blank are those of the text before, trimmed and indented,
with as many empty lines between two of them as there were blank ones, up to the limit.

While lines are taken in, those written so far have that shape already (`FormatState.Shapes`), but
for empty lines at the end, which are dropped. A stretch of blank lines writes no more empty ones
than the limit (`FormatState.foldl_line_blank`).
-/

namespace BlockDocument.Source

open Text (AllBlank unlines)

/-- The lines that are not blank. -/
def textLines (lines : List Text) : List Text := lines.filter fun line => !line.trim.isEmpty

/-- That a line is a text behind some copies of the indent. -/
def IsIndented (layout : Layout) (line text : Text) : Prop :=
  ∃ n, line = Text.copies layout.indent n ++ text

/-- That a text has the shape that another one gets in a layout. -/
structure IsTidy (layout : Layout) (source result : Text) : Prop where
  oneEnd : ∃ body, result = body ++ ['\n'] ∧ body.getLast? ≠ some '\n'
  begins : ∃ first more, result.lines = first :: more ∧ first.trim ≠ []
  bareEnds : ∀ line ∈ result.lines, line.trimEnd = line
  texts : List.Forall₂ (IsIndented layout) (textLines result.lines)
    ((textLines source.lines).map Text.trim)
  gaps : ∀ {before between after : List Text} {raw next : Text},
    source.lines = before ++ raw :: (between ++ next :: after) → raw.trim ≠ [] → next.trim ≠ [] →
    (∀ line ∈ between, line.trim = []) → ∃ above below first second,
      result.lines = above ++ first
          :: (List.replicate (min between.length layout.maxBlankLines) [] ++ second :: below)
        ∧ IsIndented layout first raw.trim ∧ IsIndented layout second next.trim
        ∧ (textLines above).length = (textLines before).length

theorem substance_eq_map (lines : List Text) :
    substance lines = (textLines lines).map Text.trim := by
  simp [substance, textLines, List.filter_map, Function.comp_def]

/-- Lines without blanks at their ends are blank only if they are empty. -/
theorem textLines_eq_filter {lines : List Text} (h : ∀ line ∈ lines, line.trimEnd = line) :
    textLines lines = lines.filter fun line => !line.isEmpty := by
  refine List.filter_congr fun line hline => ?_
  have hiff := Text.trim_eq_nil_iff_of_trimEnd (h line hline)
  rw [Bool.eq_iff_iff]
  simpa using not_congr hiff

namespace FormatState

variable {layout : Layout}

/-- That the lines written so far have the shape that the lines read so far get. -/
structure Shapes (layout : Layout) (read : List Text) (s : FormatState) : Prop where
  begins : ∀ first ∈ s.written.head?, first ≠ []
  bareEnds : ∀ line ∈ s.written, line.trimEnd = line
  texts : List.Forall₂ (IsIndented layout) (s.written.filter fun line => !line.isEmpty)
    (substance read)

theorem trimEnd_indented {raw : Text} (h : raw.trim ≠ []) (depth : Nat) :
    (indented layout depth raw).trimEnd = indented layout depth raw :=
  Text.trimEnd_append_of_not_isBlank _ h (Text.not_isBlank_getLast_trim h)

theorem shapes_line {read : List Text} {s : FormatState} (h : s.Shapes layout read) (raw : Text) :
    (s.line layout raw).Shapes layout (read ++ [raw]) := by
  by_cases hr : raw.trim = []
  · have hread : substance (read ++ [raw]) = substance read := by
      simp [substance_singleton_of_blank hr]
    rw [line_of_blank layout hr]
    split
    · rename_i hw
      refine ⟨?_, ?_, ?_⟩
      · rw [List.head?_append_of_ne_nil _ hw.1]
        exact h.begins
      · intro line hline
        rcases List.mem_append.1 hline with hline | hline
        · exact h.bareEnds line hline
        · rw [List.mem_singleton.1 hline]
          rfl
      · simpa [hread] using h.texts
    · exact ⟨h.begins, h.bareEnds, hread ▸ h.texts⟩
  · have hne := indented_ne_nil layout hr s.depth
    rw [line_of_text layout hr]
    refine ⟨?_, ?_, ?_⟩
    · intro first hfirst
      rcases hw : s.written with _ | ⟨line, more⟩ <;> rw [hw] at hfirst
      · cases hfirst
        exact hne
      · exact h.begins first (by simpa [hw] using hfirst)
    · intro line hline
      rcases List.mem_append.1 hline with hline | hline
      · exact h.bareEnds line hline
      · rw [List.mem_singleton.1 hline]
        exact trimEnd_indented hr s.depth
    · have hlast : ([indented layout s.depth raw].filter fun line => !line.isEmpty)
          = [indented layout s.depth raw] := by simp [hne]
      rw [List.filter_append, hlast, substance_append, substance_singleton hr]
      exact List.rel_append h.texts (.cons ⟨_, rfl⟩ .nil)

theorem shapes_foldl : ∀ (lines : List Text) {read : List Text} {s : FormatState},
    s.Shapes layout read → (lines.foldl (line layout) s).Shapes layout (read ++ lines)
  | [], read, s, h => by simpa using h
  | raw :: lines, read, s, h => by
    have hrest := shapes_foldl lines (shapes_line h raw)
    simpa using hrest

/-- Blank lines behind a line that is written. -/
theorem foldl_line_blank : ∀ {between : List Text} {s : FormatState},
    (∀ line ∈ between, line.trim = []) → s.written ≠ [] →
      between.foldl (line layout) s = { s with
        written := s.written ++ List.replicate (min (s.blanks + between.length)
          layout.maxBlankLines - min s.blanks layout.maxBlankLines) []
        blanks := s.blanks + between.length }
  | [], s, _, _ => by simp
  | raw :: between, s, h, hw => by
    obtain ⟨hraw, hrest⟩ := List.forall_mem_cons.1 h
    rw [List.foldl_cons, line_of_blank layout hraw]
    split
    · rename_i hblanks
      rw [foldl_line_blank hrest (by simp)]
      have hcount : min (s.blanks + (between.length + 1)) layout.maxBlankLines
          - min s.blanks layout.maxBlankLines
          = min (s.blanks + 1 + between.length) layout.maxBlankLines
            - min (s.blanks + 1) layout.maxBlankLines + 1 := by omega
      simp only [List.length_cons, hcount, List.replicate_succ, List.append_assoc,
        List.singleton_append, FormatState.mk.injEq, true_and]
      omega
    · rename_i hblanks
      have hover : layout.maxBlankLines ≤ s.blanks := by
        have hle : ¬ s.blanks + 1 ≤ layout.maxBlankLines := fun hle => hblanks ⟨hw, hle⟩
        omega
      rw [foldl_line_blank (s := { s with blanks := s.blanks + 1 }) hrest hw]
      have hcount : min (s.blanks + (between.length + 1)) layout.maxBlankLines
          - min s.blanks layout.maxBlankLines
          = min (s.blanks + 1 + between.length) layout.maxBlankLines
            - min (s.blanks + 1) layout.maxBlankLines := by omega
      simp only [List.length_cons, hcount, FormatState.mk.injEq, true_and]
      omega

end FormatState

variable (layout : Layout)

/-! ## The lines that are laid out -/

theorem shapes_lines (lines : List Text) :
    (lines.foldl (FormatState.line layout) {}).Shapes layout lines := by
  have hstart : FormatState.Shapes layout [] {} := ⟨nofun, nofun, .nil⟩
  simpa using FormatState.shapes_foldl lines hstart

theorem bareEnds_laidOut (source : Text) :
    ∀ line ∈ laidOut layout source, line.trimEnd = line := fun line hline =>
  (shapes_lines layout source.lines).bareEnds line
    ((List.rdropWhile_prefix List.isEmpty _).subset hline)

theorem texts_laidOut (source : Text) :
    List.Forall₂ (IsIndented layout) (textLines (laidOut layout source))
      ((textLines source.lines).map Text.trim) := by
  rw [textLines_eq_filter (bareEnds_laidOut layout source), laidOut, filter_dropEmptyEnd,
    ← substance_eq_map]
  exact (shapes_lines layout source.lines).texts

theorem begins_laidOut (source : Text) :
    ∀ first ∈ (laidOut layout source).head?, first ≠ [] := by
  intro first hfirst
  obtain ⟨dropped, hdropped⟩ := List.rdropWhile_prefix List.isEmpty
    (source.lines.foldl (FormatState.line layout) {}).written
  refine (shapes_lines layout source.lines).begins first ?_
  rw [← hdropped, List.head?_append]
  exact Option.or_eq_some_iff.2 (.inl hfirst)

theorem laidOut_eq_nil_iff (source : Text) : laidOut layout source = [] ↔ AllBlank source := by
  have htexts := texts_laidOut layout source
  rw [allBlank_iff_substance, substance_eq_map]
  constructor
  · intro h
    rw [h] at htexts
    exact List.forall₂_nil_left_iff.1 htexts
  · intro h
    rw [h, List.forall₂_nil_right_iff,
      textLines_eq_filter (bareEnds_laidOut layout source)] at htexts
    rcases hl : laidOut layout source with _ | ⟨first, more⟩
    · rfl
    · have hfirst := begins_laidOut layout source first (by simp [hl])
      simp [hl, hfirst] at htexts

theorem oneEnd_laidOut {source : Text} (h : laidOut layout source ≠ []) :
    ∃ body, unlines (laidOut layout source) = body ++ ['\n'] ∧ body.getLast? ≠ some '\n' := by
  have hlast : (laidOut layout source).getLast h ≠ [] := fun hnil =>
    List.rdropWhile_last_not List.isEmpty _ h (List.isEmpty_iff.2 hnil)
  have hend := Text.getLast?_of_trimEnd
    (bareEnds_laidOut layout source _ (List.getLast_mem h)) '\n'
  refine ⟨unlines ((laidOut layout source).dropLast) ++ (laidOut layout source).getLast h, ?_, ?_⟩
  · conv_lhs => rw [← List.dropLast_append_getLast h]
    simp [unlines]
  · rw [List.getLast?_append_of_ne_nil _ hlast]
    intro hnewline
    cases hend hnewline

theorem gaps_laidOut {source : Text} {before between after : List Text} {raw next : Text}
    (hs : source.lines = before ++ raw :: (between ++ next :: after)) (hr : raw.trim ≠ [])
    (hn : next.trim ≠ []) (hb : ∀ line ∈ between, line.trim = []) :
    ∃ above below first second, laidOut layout source = above ++ first
          :: (List.replicate (min between.length layout.maxBlankLines) [] ++ second :: below)
        ∧ IsIndented layout first raw.trim ∧ IsIndented layout second next.trim
        ∧ (textLines above).length = (textLines before).length := by
  let s := before.foldl (FormatState.line layout) {}
  let depth := depthAfter s.depth (braces raw.trim)
  have hshapes : s.Shapes layout before := shapes_lines layout before
  -- what is written up to the line after the gap, and what comes behind it
  let empties : List Text := List.replicate (min between.length layout.maxBlankLines) []
  let start : List Text := s.written ++ [FormatState.indented layout s.depth raw]
  have hstart : s.line layout raw = ⟨start, depth, 0⟩ := FormatState.line_of_text layout hr s
  have hgap : between.foldl (FormatState.line layout) ⟨start, depth, 0⟩
      = ⟨start ++ empties, depth, between.length⟩ := by
    rw [FormatState.foldl_line_blank hb (by simp [start])]
    simp [empties]
  obtain ⟨more, hmore, -⟩ := FormatState.written_foldl layout after
    (FormatState.line layout ⟨start ++ empties, depth, between.length⟩ next)
  have hwritten : (source.lines.foldl (FormatState.line layout) {}).written
      = (start ++ empties) ++ FormatState.indented layout depth next :: more := by
    rw [hs, List.foldl_append, List.foldl_cons, List.foldl_append, List.foldl_cons, hstart, hgap,
      hmore, FormatState.line_of_text layout hn]
    simp
  refine ⟨s.written, dropEmptyEnd more, FormatState.indented layout s.depth raw,
    FormatState.indented layout depth next, ?_, ⟨_, rfl⟩, ⟨_, rfl⟩, ?_⟩
  · rw [laidOut, hwritten, dropEmptyEnd_append_cons _ (FormatState.indented_ne_nil layout hn _)]
    simp [start, empties]
  · have htexts := hshapes.texts.length_eq
    rwa [← textLines_eq_filter hshapes.bareEnds, substance_eq_map, List.length_map] at htexts

/-- Formatted text is empty if the text before has blank characters only, and tidy otherwise. -/
theorem format_isTidy (source : Text) (hi : '\n' ∉ layout.indent) :
    (format layout source = [] ↔ AllBlank source)
      ∧ (¬ AllBlank source → IsTidy layout source (format layout source)) := by
  have hlines := lines_format_of_not_mem source hi
  constructor
  · rw [← laidOut_eq_nil_iff layout, format_eq_unlines]
    rcases laidOut layout source with _ | ⟨first, more⟩ <;> simp
  · intro hblank
    have hne : laidOut layout source ≠ [] := mt (laidOut_eq_nil_iff layout source).1 hblank
    refine ⟨?_, ?_, ?_, ?_, ?_⟩
    · rw [format_eq_unlines]
      exact oneEnd_laidOut layout hne
    · obtain ⟨first, more, hfirst⟩ := List.exists_cons_of_ne_nil hne
      have hbare := bareEnds_laidOut layout source first (by simp [hfirst])
      refine ⟨first, more, hlines.trans hfirst, ?_⟩
      rw [ne_eq, Text.trim_eq_nil_iff_of_trimEnd hbare]
      exact begins_laidOut layout source first (by simp [hfirst])
    · rw [hlines]
      exact bareEnds_laidOut layout source
    · rw [hlines]
      exact texts_laidOut layout source
    · rw [hlines]
      exact gaps_laidOut layout

/-- A layout that shows its indents. -/
def barLayout : Layout := ⟨"|\r".toList, 2⟩

/-- Text with blank lines at both ends and between its lines. -/
def looseText : Text := "\n\t\n@doc \x7b\r\n\n \n\r\n\n  - one \n\x7d\n\n ".toList

theorem format_isTidy_looseText : '\n' ∉ barLayout.indent ∧ ¬ AllBlank looseText
    ∧ IsTidy barLayout looseText (format barLayout looseText) := by
  have hi : '\n' ∉ barLayout.indent := by decide
  have hblank : ¬ AllBlank looseText := fun h => by cases h '@' (by decide)
  exact ⟨hi, hblank, (format_isTidy barLayout looseText hi).2 hblank⟩

end BlockDocument.Source
