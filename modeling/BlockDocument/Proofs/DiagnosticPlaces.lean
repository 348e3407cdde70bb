import BlockDocument.Proofs.BraceErrors

/-!
# Where diagnostics stand

What a check finds stands in the order of the text, no two findings in one place, and each points
at the character that it is about: a brace, or the `@` that a line begins with
(`diagnostics_point_at_source`). Columns count characters, so the column of a mark is the index of
its character in the line.
-/

namespace BlockDocument.Source

open Text (AllBlank)

/-- A brace as a character. -/
def Brace.sign : Brace → Char
  | .opening => '{'
  | .closing => '}'

/-- The character that a mark begins with. -/
def Mark.sign : Mark → Char
  | .brace b => b.sign
  | .unknownKeyword _ => '@'

/-- The character that a finding is about. -/
def Finding.sign : Finding → Char
  | .unexpectedClosing => '}'
  | .unclosedBlock => '{'
  | .unknownBlock _ => '@'

/-- That a diagnostic points at the character of the source that it is about, and a warning about
a keyword at one with nothing but blanks in front of it on its line. -/
structure Diagnostic.PointsInto (source : Text) (d : Diagnostic) (row : Text) : Prop where
  line_pos : 1 ≤ d.line
  column_pos : 1 ≤ d.column
  line_eq : source.lines[d.line - 1]? = some row
  sign_eq : row[d.column - 1]? = some d.finding.sign
  blank_before : d.finding.isUnmatched = false → AllBlank (row.take (d.column - 1))

theorem eq_sign_of_ofChar? {c : Char} {b : Brace} (h : Brace.ofChar? c = some b) : c = b.sign := by
  unfold Brace.ofChar? at h
  split at h <;> cases h <;> rfl

theorem getElem?_of_mem_scanBraces {b : Nat × Brace} :
    ∀ {t : Text} {state : ScanState} {column : Nat}, b ∈ scanBraces state column t →
      t[b.1 - column]? = some b.2.sign
  | c :: t, state, column, h => by
    have hrest : b ∈ scanBraces (state.next c) (column + 1) t →
        (c :: t)[b.1 - column]? = some b.2.sign := fun h => by
      have hle := le_of_mem_scanBraces h
      rw [show b.1 - column = (b.1 - (column + 1)) + 1 by omega, List.getElem?_cons_succ]
      exact getElem?_of_mem_scanBraces h
    unfold scanBraces at h
    split at h
    · rename_i hbrace
      rcases List.mem_cons.1 h with rfl | h
      · rw [Nat.sub_self, List.getElem?_cons_zero, eq_sign_of_ofChar? hbrace]
      · exact hrest h
    · exact hrest h

theorem keyword?_eq_some {row keyword : Text} {column : Nat}
    (h : keyword? row = some (column, keyword)) :
    row[column]? = some '@' ∧ AllBlank (row.take column) := by
  unfold keyword? at h
  split at h
  · rename_i c rest hd
    split at h
    · cases h
      have hline : row.takeWhile isBlank ++ '@' :: c :: rest = row := by
        rw [← hd, List.takeWhile_append_dropWhile]
      have hblank : AllBlank (row.takeWhile isBlank) := fun _ h => List.mem_takeWhile_imp h
      generalize row.takeWhile isBlank = before at hline hblank ⊢
      subst hline
      rw [List.getElem?_append_right le_rfl, Nat.sub_self, List.getElem?_cons_zero, List.take_left]
      exact ⟨rfl, hblank⟩
    · cases h
  · cases h

variable {options : CheckOptions}

/-- A mark of a line stands at its character, and a keyword behind blanks only. -/
theorem getElem?_of_mem_lineMarks {row : Text} {m : Nat × Mark} (h : m ∈ lineMarks options row) :
    row[m.1]? = some m.2.sign ∧ (m.2.isBrace = false → AllBlank (row.take m.1)) := by
  rcases List.mem_append.1 h with h | h
  · unfold keywordMarks at h
    split at h
    · rename_i hkeyword
      split at h
      · cases List.mem_singleton.1 h
        obtain ⟨hsign, hblank⟩ := keyword?_eq_some hkeyword
        exact ⟨hsign, fun _ => hblank⟩
      · cases h
    · cases h
  · obtain ⟨b, hb, rfl⟩ := List.mem_map.1 h
    refine ⟨?_, fun h => by cases h⟩
    unfold braces at hb
    split at hb
    · cases hb
    · exact getElem?_of_mem_scanBraces hb

theorem exists_line_of_mem_marks {m : (Nat × Nat) × Mark} : ∀ {lines : List Text} {index : Nat},
    m ∈ marks options index lines →
      ∃ line, lines[m.1.1 - index]? = some line ∧ (m.1.2, m.2) ∈ lineMarks options line
  | line :: lines, index, h => by
    rcases List.mem_append.1 h with h | h
    · obtain ⟨n, hn, rfl⟩ := List.mem_map.1 h
      exact ⟨line, by rw [Nat.sub_self, List.getElem?_cons_zero], hn⟩
    · have hle := le_of_mem_marks options h
      obtain ⟨line', hline, hm⟩ := exists_line_of_mem_marks h
      refine ⟨line', ?_, hm⟩
      rw [show m.1.1 - index = (m.1.1 - (index + 1)) + 1 by omega, List.getElem?_cons_succ, hline]

/-- What is found is found at a mark. -/
theorem exists_mark_of_mem_report {d : Diagnostic} :
    ∀ {ms : List ((Nat × Nat) × Mark)} {depth : Nat}, d ∈ report depth ms →
      ∃ m ∈ ms, d.line = m.1.1 + 1 ∧ d.column = m.1.2 + 1 ∧ d.finding.sign = m.2.sign
        ∧ d.finding.isUnmatched = m.2.isBrace
  | (place, .unknownKeyword keyword) :: ms, depth, h => by
    rcases List.mem_cons.1 h with rfl | h
    · exact ⟨_, List.mem_cons_self, rfl, rfl, rfl, rfl⟩
    · obtain ⟨m, hm, hd⟩ := exists_mark_of_mem_report h
      exact ⟨m, List.mem_cons_of_mem _ hm, hd⟩
  | (place, .brace .opening) :: ms, depth, h => by
    have hrest : d ∈ report (depth + 1) ms → ∃ m ∈ (place, Mark.brace .opening) :: ms,
        d.line = m.1.1 + 1 ∧ d.column = m.1.2 + 1 ∧ d.finding.sign = m.2.sign
          ∧ d.finding.isUnmatched = m.2.isBrace := fun h => by
      obtain ⟨m, hm, hd⟩ := exists_mark_of_mem_report h
      exact ⟨m, List.mem_cons_of_mem _ hm, hd⟩
    rw [report] at h
    split at h
    · rcases List.mem_cons.1 h with rfl | h
      · exact ⟨_, List.mem_cons_self, rfl, rfl, rfl, rfl⟩
      · exact hrest h
    · exact hrest h
  | (place, .brace .closing) :: ms, 0, h => by
    rcases List.mem_cons.1 h with rfl | h
    · exact ⟨_, List.mem_cons_self, rfl, rfl, rfl, rfl⟩
    · obtain ⟨m, hm, hd⟩ := exists_mark_of_mem_report h
      exact ⟨m, List.mem_cons_of_mem _ hm, hd⟩
  | (_, .brace .closing) :: ms, depth + 1, h => by
    obtain ⟨m, hm, hd⟩ := exists_mark_of_mem_report (show d ∈ report depth ms from h)
    exact ⟨m, List.mem_cons_of_mem _ hm, hd⟩

theorem exists_pointsInto {source : Text} {d : Diagnostic} (h : d ∈ check options source) :
    ∃ line, d.PointsInto source line := by
  rw [check_eq_report] at h
  obtain ⟨m, hm, hline, hcolumn, hsign, hkind⟩ := exists_mark_of_mem_report h
  obtain ⟨line, hline', hmark⟩ := exists_line_of_mem_marks hm
  obtain ⟨hchar, hblank⟩ := getElem?_of_mem_lineMarks hmark
  rw [Nat.sub_zero] at hline'
  refine ⟨line, by omega, by omega, ?_, ?_, fun hd => ?_⟩
  · rwa [hline, Nat.add_sub_cancel]
  · rwa [hcolumn, Nat.add_sub_cancel, hsign]
  · rw [hcolumn, Nat.add_sub_cancel]
    exact hblank (hkind ▸ hd)

/-- Two keywords on a line would stand in one place, that of the first character which is not
blank. -/
theorem place_eq_of_pointsInto {source line line' : Text} {d d' : Diagnostic}
    (h : d.PointsInto source line) (h' : d'.PointsInto source line')
    (hd : d.finding.isUnmatched = false) (hd' : d'.finding.isUnmatched = false)
    (hline : d.line = d'.line) : d.place = d'.place := by
  have hsame : line = line' := by
    have := h.line_eq.symm.trans (hline ▸ h'.line_eq)
    exact Option.some.inj this
  subst hsame
  have hsign : ∀ d : Diagnostic, d.finding.isUnmatched = false → d.finding.sign = '@' := by
    rintro ⟨_, _, finding⟩ hf
    cases finding with
    | unexpectedClosing | unclosedBlock => cases hf
    | unknownBlock keyword => rfl
  -- an `@` before the other one would be among the blanks in front of that
  have hle : ∀ {a b : Diagnostic}, a.PointsInto source line → b.PointsInto source line →
      a.finding.isUnmatched = false → b.finding.isUnmatched = false → b.column ≤ a.column := by
    intro a b ha hb hfa hfb
    by_contra hlt
    have hmem : '@' ∈ line.take (b.column - 1) := by
      rw [List.mem_take_iff_getElem]
      obtain ⟨hi, hget⟩ := List.getElem?_eq_some_iff.1 (hsign a hfa ▸ ha.sign_eq)
      have := ha.column_pos
      exact ⟨a.column - 1, by omega, hget⟩
    exact absurd (hb.blank_before hfb '@' hmem) (by decide)
  exact Prod.ext hline (Nat.le_antisymm (hle h' h hd' hd) (hle h h' hd hd'))

/-- What a check finds stands in the order of the text, each finding in a place of its own and at
the character that it is about, and a line has one warning about its keyword at most. -/
theorem diagnostics_point_at_source (options : CheckOptions) (source : Text) :
    (check options source).Pairwise (fun a b => Prod.Lex (· < ·) (· < ·) a.place b.place)
      ∧ (∀ d ∈ check options source, ∃ line, d.PointsInto source line)
      ∧ ∀ line, ((check options source).filter fun d =>
          !d.finding.isUnmatched && d.line = line).length ≤ 1 := by
  have hsorted : (check options source).Pairwise
      fun a b => Prod.Lex (· < ·) (· < ·) a.place b.place := by
    rw [check_eq_report]
    exact pairwise_report_marks options source.lines 0 0
  refine ⟨hsorted, fun d hd => exists_pointsInto hd, fun line => ?_⟩
  have hfound := hsorted.filter fun d => !d.finding.isUnmatched && d.line = line
  have hmem : ∀ d ∈ (check options source).filter fun d =>
      !d.finding.isUnmatched && d.line = line,
      d ∈ check options source ∧ d.finding.isUnmatched = false ∧ d.line = line := by
    intro d hd
    obtain ⟨hd, hp⟩ := List.mem_filter.1 hd
    simpa [hd] using hp
  rcases hl : (check options source).filter fun d => !d.finding.isUnmatched && d.line = line
    with _ | ⟨a, _ | ⟨b, rest⟩⟩
  · rw [hl]
    exact Nat.zero_le _
  · rw [hl]
    exact le_rfl
  · rw [hl] at hfound hmem
    obtain ⟨ha, hfa, hla⟩ := hmem a List.mem_cons_self
    obtain ⟨hb, hfb, hlb⟩ := hmem b (List.mem_cons_of_mem _ List.mem_cons_self)
    obtain ⟨_, hpa⟩ := exists_pointsInto ha
    obtain ⟨_, hpb⟩ := exists_pointsInto hb
    have hplace := place_eq_of_pointsInto hpa hpb hfa hfb (hla.trans hlb.symm)
    have hlt := List.rel_of_pairwise_cons hfound List.mem_cons_self
    rw [hplace, Prod.lex_def] at hlt
    omega

end BlockDocument.Source
