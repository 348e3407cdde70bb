import Mathlib.Data.List.Nodup
import BlockDocument.Proofs.TextLines
import BlockDocument.Source.Check

/-!
# The marks that a check looks at

A check looks at the block keywords that it does not know and at the structural braces, the marks
of a line. Blank characters around a line move its marks and do nothing else to them, so a line has
the marks of its trimmed text, further to the right.

What a check finds is said mark by mark in the order of the text (`check_eq_report`). A closing
brace is at fault if no brace is open before it, an opening one if the marks behind it close no
brace from before them, and an unknown keyword is always. So what is found depends on the marks
alone and not on where they stand (`map_finding_report_congr`), and the faults among the opening
braces are the braces that a plain count leaves open (`countP_unclosedBlock_report`).
-/

namespace BlockDocument.Source

open Text (AllBlank)

/-! ## Blank characters in a line -/

theorem ne_of_isBlank {c d : Char} (hc : isBlank c = true) (hd : isBlank d = false) : c ≠ d := by
  rintro rfl
  rw [hc] at hd
  cases hd

theorem not_continuesKeyword_of_isBlank {c : Char} (h : isBlank c = true) :
    continuesKeyword c = false := by
  rw [Bool.eq_false_iff]
  intro hk
  delta continuesKeyword Char.isAlphanum Char.isAlpha Char.isUpper Char.isLower Char.isDigit at hk
  simp only [Bool.or_eq_true, Bool.and_eq_true, decide_eq_true_eq, beq_iff_eq,
    UInt32.le_iff_toNat_le, ge_iff_le] at hk
  change ((((65 ≤ c.toNat ∧ c.toNat ≤ 90) ∨ (97 ≤ c.toNat ∧ c.toNat ≤ 122))
    ∨ (48 ≤ c.toNat ∧ c.toNat ≤ 57)) ∨ c = '_') ∨ c = '-' at hk
  rcases hk with (hk | rfl) | rfl
  · simp only [isBlank, Bool.or_eq_true, Bool.and_eq_true, decide_eq_true_eq, beq_iff_eq] at h
    omega
  · exact ne_of_isBlank h (by decide) rfl
  · exact ne_of_isBlank h (by decide) rfl

theorem startsKeyword_continues {c : Char} (h : startsKeyword c = true) :
    continuesKeyword c = true := by
  simp only [startsKeyword, continuesKeyword, Char.isAlphanum, Bool.or_eq_true] at h ⊢
  rcases h with h | h
  · exact .inl (.inl (.inl h))
  · exact .inl (.inr h)

theorem ofChar?_of_isBlank {c : Char} (h : isBlank c = true) : Brace.ofChar? c = none := by
  unfold Brace.ofChar?
  split
  · exact absurd rfl (ne_of_isBlank h (by decide))
  · exact absurd rfl (ne_of_isBlank h (by decide))
  · rfl

theorem next_code_of_isBlank {c : Char} (h : isBlank c = true) : ScanState.next .code c = .code :=
  if_neg (ne_of_isBlank h (by decide))

/-- Something in a column, moved to the right. -/
def moved {α : Type} (count : Nat) (m : Nat × α) : Nat × α := (m.1 + count, m.2)

theorem scanBraces_add (count : Nat) : ∀ (state : ScanState) (column : Nat) (t : Text),
    scanBraces state (column + count) t = (scanBraces state column t).map (moved count)
  | _, _, [] => rfl
  | state, column, c :: t => by
    have ih := scanBraces_add count (state.next c) (column + 1) t
    rw [Nat.add_right_comm] at ih
    unfold scanBraces
    rw [ih]
    cases state <;> cases Brace.ofChar? c <;> rfl

theorem scanBraces_cons_of_isBlank {c : Char} (h : isBlank c = true) (state : ScanState)
    (column : Nat) (t : Text) :
    scanBraces state column (c :: t) = scanBraces (state.next c) (column + 1) t := by
  conv_lhs => unfold scanBraces
  rw [ofChar?_of_isBlank h]
  cases state <;> rfl

theorem scanBraces_blank_append {before : Text} (h : AllBlank before) (t : Text) : ∀ column,
    scanBraces .code column (before ++ t) = scanBraces .code (column + before.length) t := by
  induction before with
  | nil => exact fun _ => rfl
  | cons c before ih =>
    intro column
    have hc := h c List.mem_cons_self
    rw [List.cons_append, scanBraces_cons_of_isBlank hc, next_code_of_isBlank hc,
      ih fun d hd => h d (List.mem_cons_of_mem _ hd), List.length_cons,
      Nat.add_right_comm, Nat.add_assoc]

theorem scanBraces_blank {after : Text} (h : AllBlank after) : ∀ (state : ScanState) (column : Nat),
    scanBraces state column after = [] := by
  induction after with
  | nil => exact fun _ _ => rfl
  | cons c after ih =>
    intro state column
    rw [scanBraces_cons_of_isBlank (h c List.mem_cons_self)]
    exact ih (fun d hd => h d (List.mem_cons_of_mem _ hd)) _ _

theorem scanBraces_append_blank {after : Text} (h : AllBlank after) :
    ∀ (t : Text) (state : ScanState) (column : Nat),
      scanBraces state column (t ++ after) = scanBraces state column t
  | [], state, column => scanBraces_blank h state column
  | c :: t, state, column => by
    rw [List.cons_append]
    unfold scanBraces
    rw [scanBraces_append_blank h t]

theorem isSome_afterStart?_append {after : Text} (h : AllBlank after) : ∀ {start : Text} (t : Text),
    (∀ c ∈ start, isBlank c = false) →
      (Text.afterStart? start (t ++ after)).isSome = (Text.afterStart? start t).isSome
  | [], _, _ => rfl
  | c :: start, [], hs => by
    rcases after with _ | ⟨d, after⟩
    · rfl
    · have hcd : c ≠ d := (ne_of_isBlank (h d List.mem_cons_self) (hs c List.mem_cons_self)).symm
      simp [Text.afterStart?, hcd]
  | c :: start, d :: t, hs => by
    rw [List.cons_append, Text.afterStart?, Text.afterStart?]
    split
    · exact isSome_afterStart?_append h t fun e he => hs e (List.mem_cons_of_mem _ he)
    · rfl

section Pad

variable {before after t : Text} {c : Char}

theorem dropWhile_pad (hb : AllBlank before) (hc : isBlank c = false) :
    (before ++ c :: t ++ after).dropWhile isBlank = c :: t ++ after := by
  rw [List.append_assoc, List.dropWhile_append_of_pos hb, List.cons_append,
    List.dropWhile_cons_of_neg (by simp [hc])]

theorem takeWhile_pad (hb : AllBlank before) (hc : isBlank c = false) :
    (before ++ c :: t ++ after).takeWhile isBlank = before := by
  rw [List.append_assoc, List.takeWhile_append_of_pos hb, List.cons_append,
    List.takeWhile_cons_of_neg (by simp [hc]), List.append_nil]

theorem braces_pad (hb : AllBlank before) (ha : AllBlank after) (hc : isBlank c = false) :
    braces (before ++ c :: t ++ after) = (braces (c :: t)).map (moved before.length) := by
  have hstart : isComment (before ++ c :: t ++ after) = isComment (c :: t) := by
    have hself : (c :: t).dropWhile isBlank = c :: t :=
      List.dropWhile_cons_of_neg (by simp [hc])
    have hslash : ∀ d ∈ "//".toList, isBlank d = false := by
      intro d hd
      rw [show d = '/' by simpa using hd]
      rfl
    unfold isComment Text.trimStart
    rw [dropWhile_pad hb hc, hself]
    exact isSome_afterStart?_append ha _ hslash
  unfold braces
  rw [hstart, scanBraces_append_blank ha, scanBraces_blank_append hb, scanBraces_add]
  split <;> rfl

theorem takeWhile_continuesKeyword_append (ha : AllBlank after) (t : Text) :
    (t ++ after).takeWhile continuesKeyword = t.takeWhile continuesKeyword := by
  have hnil : after.takeWhile continuesKeyword = [] := by
    rcases after with _ | ⟨d, after⟩
    · rfl
    · refine List.takeWhile_cons_of_neg ?_
      simp [not_continuesKeyword_of_isBlank (ha d List.mem_cons_self)]
  rw [List.takeWhile_append, hnil, List.append_nil]
  split
  · rename_i h
    exact ((List.takeWhile_prefix _).eq_of_length h).symm
  · rfl

theorem keyword?_pad (hb : AllBlank before) (ha : AllBlank after) (hc : isBlank c = false) :
    keyword? (before ++ c :: t ++ after) = (keyword? (c :: t)).map (moved before.length) := by
  have hself : (c :: t).dropWhile isBlank = c :: t := List.dropWhile_cons_of_neg (by simp [hc])
  have hnone : (c :: t).takeWhile isBlank = [] := List.takeWhile_cons_of_neg (by simp [hc])
  unfold keyword?
  rw [dropWhile_pad hb hc, takeWhile_pad hb hc, hself, hnone]
  by_cases hat : c = '@'
  · subst hat
    rcases t with _ | ⟨d, t⟩
    · rcases after with _ | ⟨d, after⟩
      · rfl
      · have hd := not_continuesKeyword_of_isBlank (ha d List.mem_cons_self)
        have hs : startsKeyword d ≠ true := fun hs => by
          rw [startsKeyword_continues hs] at hd
          cases hd
        simp [hs]
    · simp only [List.cons_append, takeWhile_continuesKeyword_append ha]
      split <;> simp [moved]
  · split
    · rename_i h
      exact absurd (List.cons.inj h).1 hat
    · split
      · rename_i h
        exact absurd (List.cons.inj h).1 hat
      · rfl

end Pad

/-! ## Marks -/

/-- What a check looks at. -/
inductive Mark
  | unknownKeyword (keyword : Text)
  | brace (brace : Brace)
  deriving DecidableEq, Repr

/-- The keyword of a line as a mark with its column, if it is one that is not known. -/
def keywordMarks (options : CheckOptions) (line : Text) : List (Nat × Mark) :=
  match keyword? line with
  | some (column, keyword) =>
    if options.warnUnknownBlocks && !knownKeywords.contains keyword then
      [(column, .unknownKeyword keyword)]
    else []
  | none => []

/-- The marks of a line with their columns, counted from zero. -/
def lineMarks (options : CheckOptions) (line : Text) : List (Nat × Mark) :=
  keywordMarks options line ++ (braces line).map fun b => (b.1, .brace b.2)

/-- The marks of lines with their places, the first line having the given index. -/
def marks (options : CheckOptions) : (index : Nat) → List Text → List ((Nat × Nat) × Mark)
  | _, [] => []
  | index, line :: lines =>
    (lineMarks options line).map (fun m => ((index, m.1), m.2)) ++ marks options (index + 1) lines

variable (options : CheckOptions)

theorem lineMarks_of_allBlank {line : Text} (h : AllBlank line) : lineMarks options line = [] := by
  have hd : line.dropWhile isBlank = [] := List.dropWhile_eq_nil_iff.2 h
  have hk : keyword? line = none := by
    unfold keyword?
    rw [hd]
  have hb : braces line = [] := by
    unfold braces
    rw [scanBraces_blank h, ite_self]
  unfold lineMarks keywordMarks
  rw [hk, hb]
  rfl

/-- Blank characters around a line move its marks to the right and do nothing else to them. -/
theorem lineMarks_pad {before after t : Text} {c : Char} (hb : AllBlank before)
    (ha : AllBlank after) (hc : isBlank c = false) :
    lineMarks options (before ++ c :: t ++ after)
      = (lineMarks options (c :: t)).map (moved before.length) := by
  have hk : keywordMarks options (before ++ c :: t ++ after)
      = (keywordMarks options (c :: t)).map (moved before.length) := by
    unfold keywordMarks
    rw [keyword?_pad hb ha hc]
    rcases keyword? (c :: t) with _ | ⟨column, keyword⟩
    · rfl
    · simp only [Option.map_some, moved]
      split <;> rfl
  unfold lineMarks
  rw [hk, braces_pad hb ha hc, List.map_append, List.map_map, List.map_map]
  rfl

/-- A line has the marks of its trimmed text, further to the right. -/
theorem lineMarks_eq_trim (line : Text) :
    ∃ count, lineMarks options line = (lineMarks options line.trim).map (moved count) := by
  obtain ⟨before, after, hb, ha, hline⟩ := Text.exists_trim line
  rcases ht : line.trim with _ | ⟨c, t⟩
  · rw [ht, List.append_nil] at hline
    have hblank : AllBlank line := by
      intro d hd
      rw [hline] at hd
      exact (List.mem_append.1 hd).elim (hb d) (ha d)
    rw [lineMarks_of_allBlank options hblank]
    exact ⟨0, rfl⟩
  · rw [ht] at hline
    refine ⟨before.length, ?_⟩
    rw [hline, lineMarks_pad options hb ha (Text.not_isBlank_head_trim ht)]

theorem lineMarks_append_blank (line : Text) {after : Text} (ha : AllBlank after) :
    lineMarks options (line ++ after) = lineMarks options line := by
  obtain ⟨before, rest, hb, hr, hline⟩ := Text.exists_trim line
  have hra : AllBlank (rest ++ after) := fun d hd => (List.mem_append.1 hd).elim (hr d) (ha d)
  rcases ht : line.trim with _ | ⟨c, t⟩
  · have hblank : AllBlank line := by
      intro d hd
      rw [hline, ht, List.append_nil] at hd
      exact (List.mem_append.1 hd).elim (hb d) (hr d)
    rw [lineMarks_of_allBlank options hblank]
    exact lineMarks_of_allBlank options fun d hd => (List.mem_append.1 hd).elim (hblank d) (ha d)
  · have hc := Text.not_isBlank_head_trim ht
    rw [hline, ht, List.append_assoc, lineMarks_pad options hb hra hc,
      lineMarks_pad options hb hr hc]

theorem map_snd_lineMarks_trim (line : Text) :
    (lineMarks options line).map Prod.snd = (lineMarks options line.trim).map Prod.snd := by
  obtain ⟨count, h⟩ := lineMarks_eq_trim options line
  rw [h, List.map_map]
  rfl

/-! ### Their order -/

theorem le_of_mem_scanBraces {b : Nat × Brace} : ∀ {t : Text} {state : ScanState} {column : Nat},
    b ∈ scanBraces state column t → column ≤ b.1
  | c :: t, state, column, h => by
    have hrest : b ∈ scanBraces (state.next c) (column + 1) t → column ≤ b.1 := fun h =>
      (Nat.le_succ column).trans (le_of_mem_scanBraces h)
    unfold scanBraces at h
    split at h
    · rcases List.mem_cons.1 h with rfl | h
      · exact Nat.le_refl _
      · exact hrest h
    · exact hrest h

theorem pairwise_scanBraces : ∀ (t : Text) (state : ScanState) (column : Nat),
    (scanBraces state column t).Pairwise fun a b => a.1 < b.1
  | [], _, _ => .nil
  | c :: t, state, column => by
    have ih := pairwise_scanBraces t (state.next c) (column + 1)
    unfold scanBraces
    split
    · exact .cons (fun _ h => le_of_mem_scanBraces h) ih
    · exact ih

theorem pairwise_braces (line : Text) : (braces line).Pairwise fun a b => a.1 < b.1 := by
  unfold braces
  split
  · exact .nil
  · exact pairwise_scanBraces _ _ _

/-- The keyword of a line stands in front of all braces. -/
theorem keyword_before_braces {line keyword : Text} {column : Nat}
    (h : keyword? line = some (column, keyword)) : ∀ b ∈ braces line, column < b.1 := by
  intro b hb
  unfold keyword? at h
  split at h
  · rename_i c rest hd
    have hline : line = line.takeWhile isBlank ++ '@' :: c :: rest := by
      rw [← hd, List.takeWhile_append_dropWhile]
    have hblank : AllBlank (line.takeWhile isBlank) := fun _ h => List.mem_takeWhile_imp h
    split at h
    · cases h
      unfold braces at hb
      split at hb
      · cases hb
      · rw [hline, scanBraces_blank_append hblank] at hb
        -- the sign in front of the keyword is no brace
        have hrest : b ∈ scanBraces .code (0 + (line.takeWhile isBlank).length + 1)
          (c :: rest) := hb
        have := le_of_mem_scanBraces hrest
        omega
    · cases h
  · cases h

theorem pairwise_lineMarks (line : Text) :
    (lineMarks options line).Pairwise fun a b => a.1 < b.1 := by
  refine List.pairwise_append.2 ⟨?_, List.pairwise_map.2 (pairwise_braces line), ?_⟩
  · unfold keywordMarks
    split
    · split <;> simp
    · exact .nil
  · intro k hk m hm
    obtain ⟨b, hb, rfl⟩ := List.mem_map.1 hm
    unfold keywordMarks at hk
    split at hk
    · rename_i column keyword h
      split at hk
      · cases List.mem_singleton.1 hk
        exact keyword_before_braces h b hb
      · cases hk
    · cases hk

theorem le_of_mem_marks {m : (Nat × Nat) × Mark} : ∀ {lines : List Text} {index : Nat},
    m ∈ marks options index lines → index ≤ m.1.1
  | line :: lines, index, h => by
    rcases List.mem_append.1 h with h | h
    · obtain ⟨_, _, rfl⟩ := List.mem_map.1 h
      exact Nat.le_refl _
    · exact (Nat.le_succ index).trans (le_of_mem_marks h)

/-- Marks stand in the order of the text, no two of them in one place. -/
theorem pairwise_marks : ∀ (lines : List Text) (index : Nat),
    (marks options index lines).Pairwise fun a b => Prod.Lex (· < ·) (· < ·) a.1 b.1
  | [], _ => .nil
  | line :: lines, index => by
    refine List.pairwise_append.2 ⟨?_, pairwise_marks lines (index + 1), ?_⟩
    · exact List.pairwise_map.2 ((pairwise_lineMarks options line).imp fun h => .right _ h)
    · intro a ha b hb
      obtain ⟨m, _, rfl⟩ := List.mem_map.1 ha
      exact .left _ _ (le_of_mem_marks options hb)

/-! ## Findings -/

/-- How many of the braces that are open before some marks are closed by them. -/
def demand : List ((Nat × Nat) × Mark) → Nat
  | [] => 0
  | (_, .unknownKeyword _) :: ms => demand ms
  | (_, .brace .opening) :: ms => demand ms - 1
  | (_, .brace .closing) :: ms => demand ms + 1

/-- What is found at some marks, in their order, `depth` braces being open before them. -/
def report : (depth : Nat) → List ((Nat × Nat) × Mark) → List Diagnostic
  | _, [] => []
  | depth, (place, .unknownKeyword keyword) :: ms =>
    .atIndex place.1 place.2 (.unknownBlock keyword) :: report depth ms
  | depth, (place, .brace .opening) :: ms =>
    if demand ms = 0 then .atIndex place.1 place.2 .unclosedBlock :: report (depth + 1) ms
    else report (depth + 1) ms
  | 0, (place, .brace .closing) :: ms =>
    .atIndex place.1 place.2 .unexpectedClosing :: report 0 ms
  | depth + 1, (_, .brace .closing) :: ms => report depth ms

namespace CheckState

/-- Takes in a mark. -/
def mark (s : CheckState) : (Nat × Nat) × Mark → CheckState
  | (place, .unknownKeyword keyword) =>
    { s with found := s.found ++ [.atIndex place.1 place.2 (.unknownBlock keyword)] }
  | (place, .brace b) => s.brace place.1 (place.2, b)

theorem line_eq_foldl_mark (s : CheckState) (index : Nat) (line : Text) :
    s.line options index line
      = ((lineMarks options line).map fun m => ((index, m.1), m.2)).foldl mark s := by
  unfold CheckState.line lineMarks
  rw [List.map_append, List.foldl_append, List.map_map, List.foldl_map]
  congr 1
  unfold keywordWarnings keywordMarks
  rcases keyword? line with _ | ⟨column, keyword⟩
  · simp
  · simp only
    split
    · rfl
    · simp

theorem lines_eq_foldl_mark : ∀ (lines : List Text) (s : CheckState) (index : Nat),
    CheckState.lines options s index lines = (marks options index lines).foldl mark s
  | [], _, _ => rfl
  | line :: lines, s, index => by
    rw [CheckState.lines, lines_eq_foldl_mark lines, line_eq_foldl_mark, marks, List.foldl_append]

/-- An open brace as a finding. -/
def unclosed (place : Nat × Nat) : Diagnostic := .atIndex place.1 place.2 .unclosedBlock

theorem found_later {α : Type} (found opened later : List α) (a : α) :
    (found ++ [a] ++ opened ++ later).Perm (found ++ opened ++ a :: later) := by
  simp only [List.append_assoc, List.singleton_append]
  exact .append_left found List.perm_middle.symm

/-- Taking in marks finds what is found at them. Of the braces that were open before, those that
the marks do not close are found too. -/
theorem finish_foldl_mark : ∀ (ms : List ((Nat × Nat) × Mark)) (s : CheckState),
    (ms.foldl mark s).finish.Perm
      (s.found ++ (s.opened.drop (demand ms)).reverse.map unclosed ++ report s.opened.length ms)
  | [], s => by
    rw [demand, report, List.drop_zero, List.append_nil]
    exact .refl _
  | (place, .unknownKeyword keyword) :: ms, s => by
    refine (finish_foldl_mark ms (s.mark (place, .unknownKeyword keyword))).trans ?_
    exact found_later _ _ _ _
  | (place, .brace .opening) :: ms, s => by
    refine (finish_foldl_mark ms (s.mark (place, .brace .opening))).trans (.of_eq ?_)
    -- the brace stays open exactly if the marks behind it close none that is open before them
    show s.found ++ ((place :: s.opened).drop (demand ms)).reverse.map unclosed
        ++ report (s.opened.length + 1) ms
      = s.found ++ (s.opened.drop (demand ms - 1)).reverse.map unclosed
        ++ report s.opened.length ((place, .brace .opening) :: ms)
    rw [report]
    rcases demand ms with _ | closed
    · simp [unclosed]
    · rw [if_neg (Nat.succ_ne_zero closed)]
      rfl
  | (place, .brace .closing) :: ms, ⟨[], found⟩ => by
    let fault : Diagnostic := .atIndex place.1 place.2 .unexpectedClosing
    refine (finish_foldl_mark ms ⟨[], found ++ [fault]⟩).trans ?_
    rw [List.drop_nil, List.drop_nil]
    exact found_later found [] (report 0 ms) fault
  | (place, .brace .closing) :: ms, ⟨_ :: opened, found⟩ => finish_foldl_mark ms ⟨opened, found⟩

end CheckState

/-- Where a diagnostic stands. -/
def Diagnostic.place (d : Diagnostic) : Nat × Nat := (d.line, d.column)

theorem sublist_place_report : ∀ (ms : List ((Nat × Nat) × Mark)) (depth : Nat),
    ((report depth ms).map Diagnostic.place).Sublist (ms.map fun m => (m.1.1 + 1, m.1.2 + 1))
  | [], _ => .refl _
  | (_, .unknownKeyword _) :: ms, depth => (sublist_place_report ms depth).cons_cons _
  | (_, .brace .opening) :: ms, depth => by
    rw [report]
    split
    · exact (sublist_place_report ms (depth + 1)).cons_cons _
    · exact (sublist_place_report ms (depth + 1)).cons _
  | (_, .brace .closing) :: ms, 0 => (sublist_place_report ms 0).cons_cons _
  | (_, .brace .closing) :: ms, depth + 1 => (sublist_place_report ms depth).cons _

/-- What is found at the marks of lines stands in the order of the text. -/
theorem pairwise_report_marks (lines : List Text) (index depth : Nat) :
    (report depth (marks options index lines)).Pairwise
      fun a b => Prod.Lex (· < ·) (· < ·) a.place b.place := by
  refine List.pairwise_map.1 (.sublist (sublist_place_report _ _) (List.pairwise_map.2 ?_))
  refine (pairwise_marks options lines index).imp fun h => ?_
  rw [Prod.lex_def] at h ⊢
  omega

theorem notAfter_iff {a b : Diagnostic} :
    a.notAfter b = true ↔ a.line < b.line ∨ a.line = b.line ∧ a.column ≤ b.column := by
  simp [Diagnostic.notAfter]

/-- A check finds what there is to find at the marks, in the order of the text. -/
theorem check_eq_report (source : Text) :
    check options source = report 0 (marks options 0 source.lines) := by
  have hperm : (check options source).Perm (report 0 (marks options 0 source.lines)) := by
    unfold check
    rw [CheckState.lines_eq_foldl_mark]
    have hfinish := CheckState.finish_foldl_mark (marks options 0 source.lines) {}
    rw [List.drop_nil] at hfinish
    exact (List.mergeSort_perm _ _).trans hfinish
  have hsorted : (check options source).Pairwise fun a b => a.notAfter b = true := by
    refine List.pairwise_mergeSort (fun a b c hab hbc => ?_) (fun a b => ?_) _
    · rw [notAfter_iff] at hab hbc ⊢
      omega
    · rw [Bool.or_eq_true, notAfter_iff, notAfter_iff]
      omega
  have hstrict := pairwise_report_marks options source.lines 0 0
  -- no two findings stand in one place, so there is one way to sort them
  have hplace : ((report 0 (marks options 0 source.lines)).map Diagnostic.place).Nodup := by
    refine List.pairwise_map.2 (hstrict.imp fun h he => ?_)
    rw [he, Prod.lex_def] at h
    omega
  refine hperm.eq_of_pairwise (fun a b ha hb hab hba => ?_) hsorted (hstrict.imp fun h => ?_)
  · refine List.inj_on_of_nodup_map hplace (hperm.mem_iff.1 ha) hb ?_
    rw [notAfter_iff] at hab hba
    exact Prod.ext (show a.line = b.line by omega) (show a.column = b.column by omega)
  · rw [Prod.lex_def] at h
    rw [notAfter_iff]
    exact h.imp_right fun ⟨hl, hc⟩ => ⟨hl, Nat.le_of_lt hc⟩

/-! ## What findings depend on -/

theorem demand_congr : ∀ {ms ms' : List ((Nat × Nat) × Mark)}, ms.map Prod.snd = ms'.map Prod.snd →
    demand ms = demand ms'
  | [], [], _ => rfl
  | (_, m) :: ms, (_, m') :: ms', h => by
    obtain ⟨rfl, hms⟩ := List.cons.inj h
    have ih := demand_congr hms
    cases m with
    | unknownKeyword => exact ih
    | brace b =>
      cases b with
      | opening => exact congrArg (· - 1) ih
      | closing => exact congrArg (· + 1) ih

/-- What is found does not depend on where the marks stand. -/
theorem map_finding_report_congr : ∀ {ms ms' : List ((Nat × Nat) × Mark)} (depth : Nat),
    ms.map Prod.snd = ms'.map Prod.snd →
      (report depth ms).map Diagnostic.finding = (report depth ms').map Diagnostic.finding
  | [], [], _, _ => rfl
  | (_, m) :: ms, (_, m') :: ms', depth, h => by
    obtain ⟨rfl, hms⟩ := List.cons.inj h
    cases m with
    | unknownKeyword keyword =>
      exact congrArg (.unknownBlock keyword :: ·) (map_finding_report_congr depth hms)
    | brace b =>
      cases b with
      | opening =>
        have ih := map_finding_report_congr (depth + 1) hms
        rw [report, report, demand_congr hms]
        split
        · exact congrArg (.unclosedBlock :: ·) ih
        · exact ih
      | closing =>
        cases depth with
        | zero => exact congrArg (.unexpectedClosing :: ·) (map_finding_report_congr 0 hms)
        | succ depth => exact map_finding_report_congr depth hms

/-- How many braces are open behind some marks, `depth` of them being open before. -/
def openAfter : (depth : Nat) → List Mark → Nat
  | depth, [] => depth
  | depth, .unknownKeyword _ :: ms => openAfter depth ms
  | depth, .brace .opening :: ms => openAfter (depth + 1) ms
  | depth, .brace .closing :: ms => openAfter (depth - 1) ms

theorem openAfter_append : ∀ (ms ms' : List Mark) (depth : Nat),
    openAfter depth (ms ++ ms') = openAfter (openAfter depth ms) ms'
  | [], _, _ => rfl
  | .unknownKeyword _ :: ms, ms', depth => openAfter_append ms ms' depth
  | .brace .opening :: ms, ms', depth => openAfter_append ms ms' (depth + 1)
  | .brace .closing :: ms, ms', depth => openAfter_append ms ms' (depth - 1)

/-- The braces that are open in the end are the unclosed ones among the marks and those from before
that the marks do not close. -/
theorem countP_unclosedBlock_report : ∀ (ms : List ((Nat × Nat) × Mark)) (depth : Nat),
    (report depth ms).countP (·.finding = .unclosedBlock) + (depth - demand ms)
      = openAfter depth (ms.map Prod.snd)
  | [], depth => by simp [report, demand, openAfter]
  | (_, .unknownKeyword _) :: ms, depth => by
    have ih := countP_unclosedBlock_report ms depth
    simpa [report, demand, openAfter, Diagnostic.atIndex] using ih
  | (_, .brace .opening) :: ms, depth => by
    have ih := countP_unclosedBlock_report ms (depth + 1)
    rw [report, demand, List.map_cons, openAfter, ← ih]
    split
    · rename_i h
      simp only [Diagnostic.atIndex, List.countP_cons, decide_true, ↓reduceIte, h]
      omega
    · omega
  | (_, .brace .closing) :: ms, 0 => by
    have ih := countP_unclosedBlock_report ms 0
    simpa [report, demand, openAfter, Diagnostic.atIndex] using ih
  | (_, .brace .closing) :: ms, depth + 1 => by
    have ih := countP_unclosedBlock_report ms depth
    rw [report, demand, List.map_cons, openAfter, Nat.add_sub_cancel, ← ih]
    omega

/-- How many unclosed blocks a check finds. -/
def unclosedCount (source : Text) : Nat :=
  (check options source).countP (·.finding = .unclosedBlock)

/-- A check finds as many unclosed blocks as there are braces open in the end. -/
theorem unclosedCount_eq_openAfter (source : Text) :
    unclosedCount options source = openAfter 0 ((marks options 0 source.lines).map Prod.snd) := by
  rw [← countP_unclosedBlock_report, Nat.zero_sub, Nat.add_zero, ← check_eq_report]
  rfl

end BlockDocument.Source
