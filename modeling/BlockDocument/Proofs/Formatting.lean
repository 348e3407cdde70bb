import BlockDocument.Proofs.SourceMarks
import BlockDocument.Source.Format

/-!
# Formatted text

Formatting leaves the substance of a text alone, which is its trimmed lines without the blank ones.
A check looks at the substance only, so it finds the same in the formatted text.

Laying out the lines that have been written so far writes them again (`FormatState.Settled`), so
formatted text stays as it is when it is formatted again. The braces that are open before a line
are those that a check of the text before it finds to be unclosed.
-/

namespace BlockDocument.Source

open Text (AllBlank IsLine unlines)

/-- That the indent of a layout is blank and ends no line. -/
def Layout.BlankIndent (layout : Layout) : Prop := ∀ c ∈ layout.indent, isBlank c = true ∧ c ≠ '\n'

/-- A layout with tabs and without blank lines. -/
def tabLayout : Layout := ⟨['\t'], 0⟩

theorem blankIndent_tabLayout : tabLayout.BlankIndent := by
  intro c hc
  rw [List.mem_singleton.1 hc]
  exact ⟨rfl, by decide⟩

/-- Text with a brace too many, an unknown keyword, an open brace and an open string. -/
def unbalancedStart : Text := "\x7d\n\n\n \t@cite \x7b  \r\n\"\x7b \\\"\n".toList

/-- A line that begins with a closing brace. -/
def closingLine : Text := "  \x7d\x7b \x7b".toList

/-- Text whose last line closes a brace and opens two. -/
def unbalancedText : Text := unbalancedStart ++ closingLine

/-- The trimmed lines without the blank ones. -/
def substance (lines : List Text) : List Text := (lines.map Text.trim).filter fun t => !t.isEmpty

@[simp]
theorem substance_nil : substance [] = [] := rfl

@[simp]
theorem substance_append (ls ms : List Text) :
    substance (ls ++ ms) = substance ls ++ substance ms := by
  simp [substance]

theorem substance_singleton_of_blank {raw : Text} (h : raw.trim = []) : substance [raw] = [] := by
  simp [substance, h]

theorem substance_singleton {raw : Text} (h : raw.trim ≠ []) : substance [raw] = [raw.trim] := by
  simp [substance, h]

theorem substance_cons (line : Text) (lines : List Text) :
    substance (line :: lines) = substance [line] ++ substance lines :=
  substance_append [line] lines

theorem substance_singleton_congr {line other : Text} (h : line.trim = other.trim) :
    substance [line] = substance [other] := by
  simp [substance, h]

/-! ## The substance of a text -/

theorem substance_lines_of_not_mem {t : Text} (hn : '\n' ∉ t) :
    substance t.lines = substance [t] := by
  rcases t with _ | ⟨c, t⟩
  · rfl
  · rw [Text.lines_of_not_mem (List.cons_ne_nil c t) hn]

theorem substance_lines_append_newline {t : Text} (hn : '\n' ∉ t) (rest : Text) :
    substance (t ++ '\n' :: rest).lines = substance [t] ++ substance rest.lines := by
  obtain ⟨line, hlines, hline⟩ := Text.exists_line_append_newline rest hn
  have htrim : line.trim = t.trim := by
    rcases hline with rfl | rfl
    · rfl
    · have hreturn : AllBlank ['\r'] := fun c hc => by rw [List.mem_singleton.1 hc]; rfl
      have hpad := Text.trim_pad (List.forall_mem_nil _) hreturn line
      simpa using hpad.symm
  rw [hlines, substance_cons, substance_singleton_congr htrim]

/-- Blank characters in front of a text make blank lines, or they stand in front of its first
line. -/
theorem substance_lines_cons_of_isBlank {c : Char} (hc : isBlank c = true) (t : Text) :
    substance (Text.lines (c :: t)) = substance t.lines := by
  have hblank : AllBlank [c] := by simpa [AllBlank] using hc
  have hpad : ∀ line : Text, Text.trim (c :: line) = line.trim := fun line => by
    simpa using Text.trim_pad hblank (List.forall_mem_nil _) line
  by_cases hn : c = '\n'
  · subst hn
    exact substance_cons [] t.lines
  · by_cases hr : c = '\r' → t.head? ≠ some '\n'
    · rw [Text.lines_cons hn hr]
      rcases t.lines with _ | ⟨first, more⟩
      · exact substance_singleton_of_blank ((hpad []).trans rfl)
      · show substance ((c :: first) :: more) = _
        rw [substance_cons, substance_singleton_congr (hpad first), ← substance_cons]
    · simp only [Classical.not_imp, ne_eq, Classical.not_not] at hr
      obtain ⟨rfl, hhead⟩ := hr
      obtain ⟨rest, rfl⟩ := List.head?_eq_some_iff.1 hhead
      rfl

theorem substance_lines_append_of_allBlank (t : Text) : ∀ {before : Text}, AllBlank before →
    substance (before ++ t).lines = substance t.lines
  | [], _ => rfl
  | c :: before, h => by
    have hbefore : AllBlank before := fun d hd => h d (List.mem_cons_of_mem c hd)
    rw [List.cons_append, substance_lines_cons_of_isBlank (h c List.mem_cons_self),
      substance_lines_append_of_allBlank t hbefore]

/-- A line among blank characters is all the substance there is. -/
theorem substance_lines_pad {before after t : Text} (hb : AllBlank before) (ha : AllBlank after)
    (hn : '\n' ∉ t) : substance (before ++ (t ++ after)).lines = substance [t] := by
  have hpad : ∀ {blanks : Text}, AllBlank blanks → (t ++ blanks).trim = t.trim := fun h => by
    simpa using Text.trim_pad (List.forall_mem_nil _) h t
  rw [substance_lines_append_of_allBlank _ hb]
  by_cases hafter : '\n' ∈ after
  · obtain ⟨start, rest, rfl, hstart⟩ := List.eq_append_cons_of_mem hafter
    have hrest : AllBlank rest := fun c hc => ha c (by simp [hc])
    have hnil : substance (Text.lines rest) = [] := by
      have hsame := substance_lines_append_of_allBlank [] hrest
      rwa [List.append_nil] at hsame
    rw [← List.append_assoc, substance_lines_append_newline (by simp [hn, hstart]), hnil,
      List.append_nil, substance_singleton_congr (hpad fun c hc => ha c (by simp [hc]))]
  · rw [substance_lines_of_not_mem (by simp [hn, hafter]), substance_singleton_congr (hpad ha)]

theorem substance_lines_cons_ne_nil {c : Char} (hc : isBlank c = false) (t : Text) :
    substance (Text.lines (c :: t)) ≠ [] := by
  have hne : c ≠ '\n' ∧ c ≠ '\r' := by
    constructor <;> rintro rfl <;> cases hc
  obtain ⟨line, more, hlines⟩ : ∃ line more, Text.lines (c :: t) = (c :: line) :: more := by
    rw [Text.lines_cons hne.1 fun h => absurd h hne.2]
    rcases t.lines with _ | ⟨line, more⟩
    · exact ⟨[], [], rfl⟩
    · exact ⟨line, more, rfl⟩
  have htrim : Text.trim (c :: line) ≠ [] := by
    intro h
    rw [Text.trim_eq_nil_iff.1 h c List.mem_cons_self] at hc
    cases hc
  rw [hlines, substance_cons, substance_singleton htrim]
  simp

/-- A text without substance has blank characters only. -/
theorem allBlank_iff_substance : ∀ t : Text, AllBlank t ↔ substance t.lines = []
  | [] => by simp [AllBlank, Text.lines]
  | c :: t => by
    have ih := allBlank_iff_substance t
    rcases hc : isBlank c with _ | _
    · simp [AllBlank, hc, substance_lines_cons_ne_nil hc]
    · rw [substance_lines_cons_of_isBlank hc, ← ih]
      simp [AllBlank, hc]

theorem mem_copies {c : Char} {t : Text} : ∀ {n : Nat}, c ∈ Text.copies t n → c ∈ t
  | _ + 1, h => (List.mem_append.1 h).elim id mem_copies

namespace FormatState

variable (layout : Layout)

/-! ## One line -/

theorem line_of_blank {raw : Text} (h : raw.trim = []) (s : FormatState) :
    s.line layout raw
      = if s.written ≠ [] ∧ s.blanks + 1 ≤ layout.maxBlankLines then
          { s with written := s.written ++ [[]], blanks := s.blanks + 1 }
        else { s with blanks := s.blanks + 1 } := by
  unfold line
  simp only [h, List.isEmpty_nil, ↓reduceIte]
  congr 1
  simp

/-- A line that is not blank, as it is written behind a number of open braces. -/
def indented (depth : Nat) (raw : Text) : Text :=
  Text.copies layout.indent (depth - leadingClosers 0 (braces raw.trim)) ++ raw.trim

theorem line_of_text {raw : Text} (h : raw.trim ≠ []) (s : FormatState) :
    s.line layout raw
      = ⟨s.written ++ [indented layout s.depth raw], depthAfter s.depth (braces raw.trim), 0⟩ := by
  unfold line
  simp only [List.isEmpty_iff, h, ↓reduceIte]
  rfl

theorem indented_ne_nil {raw : Text} (h : raw.trim ≠ []) (depth : Nat) :
    indented layout depth raw ≠ [] :=
  List.append_ne_nil_of_right_ne_nil _ h

variable {layout}

theorem trim_indented (hi : layout.BlankIndent) (depth : Nat) (raw : Text) :
    (indented layout depth raw).trim = raw.trim := by
  have hb : AllBlank (Text.copies layout.indent (depth - leadingClosers 0 (braces raw.trim))) :=
    fun c hc => (hi c (mem_copies hc)).1
  have hp := Text.trim_pad hb (List.forall_mem_nil _) raw.trim
  rwa [List.append_nil, Text.trim_trim] at hp

theorem indented_indented (hi : layout.BlankIndent) (depth : Nat) (raw : Text) :
    indented layout depth (indented layout depth raw) = indented layout depth raw := by
  rw [indented, trim_indented hi]
  rfl

/-! ## Writing again what is written -/

variable (layout) in
/-- That laying out what is written writes it again. Blank lines beyond the limit are counted the
first time only. -/
def Settled (s : FormatState) : Prop :=
  s.written.foldl (line layout) {}
    = { s with blanks := if s.written = [] then 0 else min s.blanks layout.maxBlankLines }

theorem settled_line (hi : layout.BlankIndent) {s : FormatState} (hs : s.Settled layout)
    (raw : Text) : (s.line layout raw).Settled layout := by
  unfold Settled at hs ⊢
  by_cases hr : raw.trim = []
  · rw [line_of_blank layout hr]
    split
    · rename_i h
      obtain ⟨hw, hb⟩ := h
      rw [List.foldl_append, hs, List.foldl_cons, List.foldl_nil, line_of_blank layout rfl]
      have hm : min s.blanks layout.maxBlankLines = s.blanks := by omega
      simp [hw, hb, hm]
    · rename_i h
      rw [hs]
      by_cases hw : s.written = []
      · simp [hw]
      · have hb : min (s.blanks + 1) layout.maxBlankLines = min s.blanks layout.maxBlankLines := by
          have : ¬ s.blanks + 1 ≤ layout.maxBlankLines := fun hb => h ⟨hw, hb⟩
          omega
        simp [hw, hb]
  · have ht : (indented layout s.depth raw).trim ≠ [] := by
      rwa [trim_indented hi]
    rw [line_of_text layout hr, List.foldl_append, hs, List.foldl_cons, List.foldl_nil,
      line_of_text layout ht, trim_indented hi, indented_indented hi]
    simp

theorem settled_foldl (hi : layout.BlankIndent) : ∀ (lines : List Text) {s : FormatState},
    s.Settled layout → (lines.foldl (line layout) s).Settled layout
  | [], _, hs => hs
  | raw :: lines, _, hs => settled_foldl hi lines (settled_line hi hs raw)

/-! ## Written lines -/

variable (layout)

/-- A line adds to what is written at most one line, and one that is not empty exactly if it is not
blank itself. -/
theorem written_line (s : FormatState) (raw : Text) :
    ∃ more, (s.line layout raw).written = s.written ++ more
      ∧ (more.filter fun l => !l.isEmpty).length = (substance [raw]).length := by
  by_cases hr : raw.trim = []
  · rw [line_of_blank layout hr, substance_singleton_of_blank hr]
    split
    · exact ⟨[[]], rfl, rfl⟩
    · exact ⟨[], by simp, rfl⟩
  · rw [line_of_text layout hr, substance_singleton hr]
    exact ⟨[indented layout s.depth raw], rfl, by simp [indented_ne_nil layout hr]⟩

theorem written_foldl : ∀ (lines : List Text) (s : FormatState),
    ∃ more, (lines.foldl (line layout) s).written = s.written ++ more
      ∧ (more.filter fun l => !l.isEmpty).length = (substance lines).length
  | [], s => ⟨[], by simp, rfl⟩
  | raw :: lines, s => by
    obtain ⟨first, hf, hfirst⟩ := written_line layout s raw
    obtain ⟨more, hm, hmore⟩ := written_foldl lines (s.line layout raw)
    refine ⟨first ++ more, by rw [List.foldl_cons, hm, hf, List.append_assoc], ?_⟩
    rw [← List.singleton_append, substance_append, List.filter_append, List.length_append,
      List.length_append, hfirst, hmore]

/-- Dropping blank lines at the end of what is written is stopping before blank lines at the end
of what is read. -/
theorem exists_dropEmptyEnd_written (lines : List Text) :
    ∃ core, core <+: lines
      ∧ dropEmptyEnd (lines.foldl (line layout) {}).written
        = (core.foldl (line layout) {}).written := by
  induction lines using List.reverseRecOn with
  | nil => exact ⟨[], List.prefix_rfl, rfl⟩
  | append_singleton lines raw ih =>
    obtain ⟨core, hp, hc⟩ := ih
    rw [List.foldl_append, List.foldl_cons, List.foldl_nil]
    by_cases hr : raw.trim = []
    · refine ⟨core, hp.trans (List.prefix_append _ _), ?_⟩
      rw [line_of_blank layout hr, ← hc]
      split
      · exact List.rdropWhile_concat_pos _ _ _ rfl
      · rfl
    · refine ⟨lines ++ [raw], List.prefix_rfl, ?_⟩
      rw [List.foldl_append, List.foldl_cons, List.foldl_nil, line_of_text layout hr]
      refine List.rdropWhile_concat_neg _ _ _ ?_
      simp [indented_ne_nil layout hr]

end FormatState

/-- The lines of formatted text. -/
def laidOut (layout : Layout) (source : Text) : List Text :=
  dropEmptyEnd (source.lines.foldl (FormatState.line layout) {}).written

variable (layout : Layout) (source : Text)

theorem format_eq_unlines : format layout source = unlines (laidOut layout source) := by
  show (if (laidOut layout source).isEmpty then []
    else Text.join ['\n'] (laidOut layout source) ++ ['\n']) = _
  split
  · rename_i h
    rw [List.isEmpty_iff.1 h]
    rfl
  · rename_i h
    rw [List.isEmpty_iff] at h
    exact (Text.unlines_eq_join h).symm

variable {layout}

theorem Layout.BlankIndent.not_mem (hi : layout.BlankIndent) : '\n' ∉ layout.indent :=
  fun h => (hi _ h).2 rfl

theorem isLine_indented (hi : '\n' ∉ layout.indent) {raw : Text} (hn : '\n' ∉ raw)
    (hr : raw.trim ≠ []) (depth : Nat) : IsLine (FormatState.indented layout depth raw) := by
  constructor
  · intro h
    rcases List.mem_append.1 h with h | h
    · exact hi (mem_copies h)
    · obtain ⟨before, after, -, -, hraw⟩ := Text.exists_trim raw
      rw [hraw] at hn
      exact hn (List.mem_append_left _ (List.mem_append_right _ h))
  · intro h
    have hl := Text.not_isBlank_getLast_trim hr
    unfold FormatState.indented at h
    rw [List.getLast?_append_of_ne_nil _ hr, List.getLast?_eq_some_getLast hr] at h
    rw [Option.some.inj h] at hl
    cases hl

theorem isLine_line (hi : '\n' ∉ layout.indent) {raw : Text} (hn : '\n' ∉ raw) {s : FormatState}
    (hs : ∀ l ∈ s.written, IsLine l) : ∀ l ∈ (s.line layout raw).written, IsLine l := by
  have hadd : ∀ {last : Text}, IsLine last → ∀ l ∈ s.written ++ [last], IsLine l := by
    intro last hlast l hl
    rcases List.mem_append.1 hl with hl | hl
    · exact hs l hl
    · rwa [List.mem_singleton.1 hl]
  by_cases hr : raw.trim = []
  · rw [FormatState.line_of_blank layout hr]
    split
    · exact hadd ⟨List.not_mem_nil, nofun⟩
    · exact hs
  · rw [FormatState.line_of_text layout hr]
    exact hadd (isLine_indented hi hn hr _)

theorem isLine_foldl (hi : '\n' ∉ layout.indent) : ∀ {lines : List Text} {s : FormatState},
    (∀ raw ∈ lines, '\n' ∉ raw) → (∀ l ∈ s.written, IsLine l) →
      ∀ l ∈ (lines.foldl (FormatState.line layout) s).written, IsLine l
  | [], _, _, hs => hs
  | raw :: lines, s, hl, hs => by
    have hrest : ∀ r ∈ lines, '\n' ∉ r := fun r hr => hl r (List.mem_cons_of_mem raw hr)
    rw [List.foldl_cons]
    exact isLine_foldl hi hrest (isLine_line hi (hl raw List.mem_cons_self) hs)

/-- Formatted text has the lines that were laid out. -/
theorem lines_format_of_not_mem (hi : '\n' ∉ layout.indent) :
    (format layout source).lines = laidOut layout source := by
  rw [format_eq_unlines]
  refine Text.lines_unlines fun l hl => ?_
  have hw := (List.rdropWhile_prefix List.isEmpty _).subset hl
  exact isLine_foldl hi (Text.newline_not_mem_lines source) (List.forall_mem_nil _) l hw

theorem lines_format (hi : layout.BlankIndent) :
    (format layout source).lines = laidOut layout source :=
  lines_format_of_not_mem source hi.not_mem

/-! ## Formatting again -/

/-- Formatting formatted text changes nothing. -/
theorem format_format (hi : layout.BlankIndent) :
    format layout (format layout source) = format layout source := by
  obtain ⟨core, -, hcore⟩ := FormatState.exists_dropEmptyEnd_written layout source.lines
  have hlaid : laidOut layout source = (core.foldl (FormatState.line layout) {}).written := hcore
  have hsettled : (core.foldl (FormatState.line layout) {}).Settled layout :=
    FormatState.settled_foldl hi core rfl
  have hagain : laidOut layout (format layout source) = laidOut layout source := by
    unfold laidOut
    rw [lines_format source hi, hlaid, hsettled]
    exact hcore ▸ List.rdropWhile_idempotent _ _
  rw [format_eq_unlines, hagain, ← format_eq_unlines]

theorem format_format_unbalancedText : tabLayout.BlankIndent
    ∧ format tabLayout (format tabLayout unbalancedText) = format tabLayout unbalancedText :=
  ⟨blankIndent_tabLayout, format_format unbalancedText blankIndent_tabLayout⟩

/-! ## Checking formatted text -/

theorem substance_line (hi : layout.BlankIndent) (s : FormatState) (raw : Text) :
    substance (s.line layout raw).written = substance s.written ++ substance [raw] := by
  by_cases hr : raw.trim = []
  · rw [FormatState.line_of_blank layout hr, substance_singleton_of_blank hr, List.append_nil]
    split
    · rw [substance_append, substance_singleton_of_blank rfl, List.append_nil]
    · rfl
  · have ht : (FormatState.indented layout s.depth raw).trim ≠ [] := by
      rwa [FormatState.trim_indented hi]
    rw [FormatState.line_of_text layout hr, substance_append, substance_singleton ht,
      substance_singleton hr, FormatState.trim_indented hi]

theorem substance_foldl (hi : layout.BlankIndent) : ∀ (lines : List Text) (s : FormatState),
    substance (lines.foldl (FormatState.line layout) s).written
      = substance s.written ++ substance lines
  | [], s => by simp
  | raw :: lines, s => by
    rw [List.foldl_cons, substance_foldl hi lines, substance_line hi, List.append_assoc,
      ← substance_append, List.singleton_append]

theorem exists_append_empties (lines : List Text) :
    ∃ empties : List Text, (∀ l ∈ empties, l = []) ∧ lines = dropEmptyEnd lines ++ empties :=
  ⟨lines.rtakeWhile List.isEmpty, fun _ hl => List.isEmpty_iff.1 (List.mem_rtakeWhile_imp hl),
    List.rdropWhile_append_rtakeWhile.symm⟩

theorem substance_dropEmptyEnd (lines : List Text) :
    substance (dropEmptyEnd lines) = substance lines := by
  obtain ⟨empties, he, hl⟩ := exists_append_empties lines
  have hnil : substance empties = [] := by
    refine List.filter_eq_nil_iff.2 fun t ht => ?_
    obtain ⟨l, hl, rfl⟩ := List.mem_map.1 ht
    rw [he l hl]
    simp [Text.trim, Text.trimStart, Text.trimEnd]
  conv_rhs => rw [hl, substance_append, hnil, List.append_nil]

theorem substance_lines_format (hi : layout.BlankIndent) :
    substance (format layout source).lines = substance source.lines := by
  rw [lines_format source hi, laidOut, substance_dropEmptyEnd, substance_foldl hi]
  rfl

theorem map_snd_marks (options : CheckOptions) : ∀ (lines : List Text) (index : Nat),
    (marks options index lines).map Prod.snd
      = (substance lines).flatMap fun t => (lineMarks options t).map Prod.snd
  | [], _ => rfl
  | line :: lines, index => by
    have hline : (lineMarks options line).map Prod.snd
        = (substance [line]).flatMap fun t => (lineMarks options t).map Prod.snd := by
      rw [map_snd_lineMarks_trim]
      by_cases hr : line.trim = []
      · rw [hr, substance_singleton_of_blank hr, lineMarks_of_allBlank _ (List.forall_mem_nil _)]
        rfl
      · rw [substance_singleton hr, List.flatMap_singleton]
    rw [← List.singleton_append, substance_append, List.flatMap_append, ← hline,
      ← map_snd_marks options lines (index + 1)]
    simp [marks, Function.comp_def]

/-- A check finds the same, in the same order, in formatted text as in the text before. -/
theorem check_format (options : CheckOptions) (hi : layout.BlankIndent) :
    (check options (format layout source)).map
        (fun d => (d.finding.severity, d.finding.message))
      = (check options source).map fun d => (d.finding.severity, d.finding.message) := by
  have hmarks : (marks options 0 (format layout source).lines).map Prod.snd
      = (marks options 0 source.lines).map Prod.snd := by
    rw [map_snd_marks, map_snd_marks, substance_lines_format source hi]
  have hfindings := map_finding_report_congr 0 hmarks
  rw [← check_eq_report, ← check_eq_report] at hfindings
  have hpairs := congrArg (List.map fun f : Finding => (f.severity, f.message)) hfindings
  rwa [List.map_map, List.map_map] at hpairs

theorem check_format_unbalancedText : tabLayout.BlankIndent
    ∧ (check {} (format tabLayout unbalancedText)).map
        (fun d => (d.finding.severity, d.finding.message))
      = (check {} unbalancedText).map fun d => (d.finding.severity, d.finding.message) :=
  ⟨blankIndent_tabLayout, check_format unbalancedText {} blankIndent_tabLayout⟩

/-! ## The depth of a line -/

theorem openAfter_lineMarks (options : CheckOptions) (line : Text) (depth : Nat) :
    openAfter depth ((lineMarks options line).map Prod.snd) = depthAfter depth (braces line) := by
  have hkeyword : ∀ d, openAfter d ((keywordMarks options line).map Prod.snd) = d := by
    intro d
    unfold keywordMarks
    split
    · split <;> rfl
    · rfl
  have hbraces : ∀ (bs : List (Nat × Brace)) (d : Nat),
      openAfter d ((bs.map fun b => (b.1, Mark.brace b.2)).map Prod.snd) = depthAfter d bs := by
    intro bs
    induction bs with
    | nil => exact fun _ => rfl
    | cons b bs ih =>
      intro d
      obtain ⟨column, brace⟩ := b
      cases brace with
      | opening => exact ih (d + 1)
      | closing => exact ih (d - 1)
  unfold lineMarks
  rw [List.map_append, openAfter_append, hkeyword, hbraces]

theorem FormatState.depth_line (options : CheckOptions) (s : FormatState) (raw : Text) :
    (s.line layout raw).depth = openAfter s.depth ((lineMarks options raw).map Prod.snd) := by
  rw [map_snd_lineMarks_trim, openAfter_lineMarks]
  by_cases hr : raw.trim = []
  · rw [line_of_blank layout hr, hr]
    split <;> rfl
  · rw [line_of_text layout hr]

/-- Formatting and checking count the same braces as open. -/
theorem FormatState.depth_foldl (options : CheckOptions) : ∀ (lines : List Text) (s : FormatState)
    (index : Nat), (lines.foldl (line layout) s).depth
      = openAfter s.depth ((marks options index lines).map Prod.snd)
  | [], _, _ => rfl
  | raw :: lines, s, index => by
    rw [List.foldl_cons, depth_foldl options lines _ (index + 1), depth_line options, marks,
      List.map_append, openAfter_append, List.map_map]
    rfl

theorem leadingClosers_eq_zero {column : Nat} : ∀ {bs : List (Nat × Brace)},
    (∀ b ∈ bs, column < b.1) → leadingClosers column bs = 0
  | [], _ => rfl
  | (_, .opening) :: _, _ => rfl
  | (c, .closing) :: bs, h => by
    have hc : column < c := h (c, .closing) List.mem_cons_self
    rw [leadingClosers, if_neg (by omega)]

theorem eq_of_ofChar?_closing {c : Char} (h : Brace.ofChar? c = some .closing) : c = '}' := by
  unfold Brace.ofChar? at h
  split at h
  · cases h
  · rfl
  · cases h

/-- The closing braces that a line begins with are the characters that it begins with. -/
theorem leadingClosers_scanBraces : ∀ (t : Text) (column : Nat),
    leadingClosers column (scanBraces .code column t) = (t.takeWhile (· = '}')).length
  | [], _ => rfl
  | c :: t, column => by
    have hlater : ∀ b ∈ scanBraces (ScanState.next .code c) (column + 1) t, column < b.1 :=
      fun _ hb => le_of_mem_scanBraces hb
    by_cases hc : c = '}'
    · subst hc
      have ih := leadingClosers_scanBraces t (column + 1)
      show (if column = column then
        leadingClosers (column + 1) (scanBraces .code (column + 1) t) + 1 else 0) = _
      rw [if_pos rfl, ih, List.takeWhile_cons_of_pos (by simp), List.length_cons]
    · rw [List.takeWhile_cons_of_neg (by simpa using hc)]
      unfold scanBraces
      split
      · rename_i brace _ hbrace
        cases brace with
        | opening => rfl
        | closing => exact absurd (eq_of_ofChar?_closing hbrace) hc
      · exact leadingClosers_eq_zero hlater

theorem leadingClosers_braces (line : Text) :
    leadingClosers 0 (braces line) = (line.takeWhile (· = '}')).length := by
  unfold braces
  split
  · rename_i hcomment
    rcases line with _ | ⟨c, t⟩
    · rfl
    · -- a comment line begins with a slash, perhaps behind blanks
      have hc : c ≠ '}' := by
        rintro rfl
        cases (show isComment ('}' :: t) = false from rfl).symm.trans hcomment
      rw [List.takeWhile_cons_of_neg (by simpa using hc)]
      rfl
  · exact leadingClosers_scanBraces line 0

theorem dropEmptyEnd_append_cons (before : List Text) {line : Text} (h : line ≠ [])
    (after : List Text) :
    dropEmptyEnd (before ++ line :: after) = before ++ line :: dropEmptyEnd after := by
  unfold dropEmptyEnd
  rw [List.reverse_append, List.reverse_cons, List.append_assoc, List.singleton_append,
    List.dropWhile_append, List.dropWhile_cons_of_neg (by simpa using h)]
  by_cases ha : after.reverse.dropWhile List.isEmpty = []
  · simp [ha]
  · simp [ha]

theorem filter_dropEmptyEnd (lines : List Text) :
    (dropEmptyEnd lines).filter (fun l => !l.isEmpty) = lines.filter fun l => !l.isEmpty := by
  obtain ⟨empties, he, hl⟩ := exists_append_empties lines
  have hnil : (empties.filter fun l => !l.isEmpty) = [] :=
    List.filter_eq_nil_iff.2 fun l h => by simp [he l h]
  conv_rhs => rw [hl, List.filter_append, hnil, List.append_nil]

/-- A line that is not blank is indented by the blocks that a check of the text before it finds to
be unclosed, less the closing braces that the line begins with. -/
theorem format_indents_by_unclosed (layout : Layout) {source : Text} {before after : List Text}
    {raw : Text} (hs : source.lines = before ++ raw :: after) (hr : raw.trim ≠ []) :
    (∃ start : Text, start <+: source ∧ start.lines = before)
      ∧ ∀ (options : CheckOptions) (start : Text), start.lines = before →
        ∃ above below, format layout source = unlines (above
            ++ (Text.copies layout.indent (unclosedCount options start
              - (raw.trim.takeWhile (· = '}')).length) ++ raw.trim) :: below)
          ∧ (above.filter fun l => !l.isEmpty).length = (substance before).length
          ∧ (below.filter fun l => !l.isEmpty).length = (substance after).length := by
  refine ⟨Text.exists_start_lines hs, fun options start hstart => ?_⟩
  let s := before.foldl (FormatState.line layout) {}
  have hdepth : s.depth = unclosedCount options start := by
    rw [unclosedCount_eq_openAfter, hstart]
    exact FormatState.depth_foldl options before {} 0
  obtain ⟨above, habove, hcount⟩ := FormatState.written_foldl layout before {}
  obtain ⟨more, hmore, hcount'⟩ := FormatState.written_foldl layout after (s.line layout raw)
  have hwritten : (source.lines.foldl (FormatState.line layout) {}).written
      = above ++ FormatState.indented layout s.depth raw :: more := by
    rw [hs, List.foldl_append, List.foldl_cons, hmore, FormatState.line_of_text layout hr]
    show s.written ++ _ ++ _ = _
    rw [show s.written = above from habove, List.append_assoc]
    rfl
  refine ⟨above, dropEmptyEnd more, ?_, hcount, ?_⟩
  · rw [format_eq_unlines, laidOut, hwritten,
      dropEmptyEnd_append_cons above (FormatState.indented_ne_nil layout hr _), hdepth,
      FormatState.indented, leadingClosers_braces]
  · rw [filter_dropEmptyEnd, hcount']

theorem format_indents_by_unclosed_unbalancedText :
    unbalancedText.lines = unbalancedStart.lines ++ closingLine :: [] ∧ closingLine.trim ≠ []
      ∧ ∃ above below, format tabLayout unbalancedText = unlines (above
          ++ (Text.copies ['\t'] (unclosedCount {} unbalancedStart
            - (closingLine.trim.takeWhile (· = '}')).length) ++ closingLine.trim) :: below)
        ∧ (above.filter fun l => !l.isEmpty).length = (substance unbalancedStart.lines).length
        ∧ (below.filter fun l => !l.isEmpty).length = (substance []).length := by
  have hlines : unbalancedText.lines = unbalancedStart.lines ++ closingLine :: [] := rfl
  have hraw : closingLine.trim ≠ [] := by decide
  exact ⟨hlines, hraw,
    (format_indents_by_unclosed tabLayout hlines hraw).2 {} unbalancedStart rfl⟩

end BlockDocument.Source
