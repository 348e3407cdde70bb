import Mathlib.Data.List.DropRight
import BlockDocument.Text.Blank
import BlockDocument.Text.Lines

/-!
# Lines and the blanks around them

Lines that are written with a line feed behind each are read back as they are, unless one of them
holds a line feed or ends in a carriage return. Wherever the lines of a text are cut in two, the
first of them are the lines of a start of the text.

A line is its trimmed text with blank characters around it. Trimming does not see how many there
are, so it is the same for every text that differs in them only.
-/

namespace BlockDocument.Text

/-! ## Blank ends -/

/-- That a text has no other characters than blank ones. -/
def AllBlank (t : Text) : Prop := ∀ c ∈ t, isBlank c = true

theorem trimEnd_eq_rdropWhile (t : Text) : trimEnd t = t.rdropWhile isBlank := by
  induction t with
  | nil => rfl
  | cons c t ih =>
    have hcons : (c :: t).rdropWhile isBlank
        = if t.rdropWhile isBlank = [] then if isBlank c then [] else [c]
          else c :: t.rdropWhile isBlank := by
      unfold List.rdropWhile
      rw [List.reverse_cons, List.dropWhile_append]
      by_cases h : t.reverse.dropWhile isBlank = []
      · by_cases hc : isBlank c <;> simp [h, hc]
      · simp [h]
    rw [hcons, trimEnd, ih]
    split
    · rename_i h
      rw [if_pos h]
    · rename_i h
      rw [if_neg h]

theorem rdropWhile_append_of_allBlank (t : Text) {after : Text} (h : AllBlank after) :
    (t ++ after).rdropWhile isBlank = t.rdropWhile isBlank := by
  unfold List.rdropWhile
  rw [List.reverse_append, List.dropWhile_append_of_pos]
  exact fun c hc => h c (List.mem_reverse.1 hc)

/-- Blank characters at the ends do not matter for trimming. -/
theorem trim_pad {before after : Text} (hb : AllBlank before) (ha : AllBlank after) (t : Text) :
    (before ++ t ++ after).trim = t.trim := by
  have ha' : after.dropWhile isBlank = [] := List.dropWhile_eq_nil_iff.2 ha
  unfold trim trimStart
  rw [List.append_assoc, List.dropWhile_append_of_pos hb, List.dropWhile_append]
  by_cases h : t.dropWhile isBlank = []
  · simp [h, ha']
  · simp only [List.isEmpty_iff, h, ↓reduceIte, trimEnd_eq_rdropWhile]
    exact rdropWhile_append_of_allBlank _ ha

/-- A text is its trimmed text with blank characters at the ends. -/
theorem exists_trim (t : Text) :
    ∃ before after, AllBlank before ∧ AllBlank after ∧ t = before ++ t.trim ++ after := by
  refine ⟨t.takeWhile isBlank, (t.dropWhile isBlank).rtakeWhile isBlank,
    fun c hc => List.mem_takeWhile_imp hc, fun c hc => List.mem_rtakeWhile_imp hc, ?_⟩
  unfold trim trimStart
  rw [trimEnd_eq_rdropWhile, List.append_assoc, List.rdropWhile_append_rtakeWhile,
    List.takeWhile_append_dropWhile]

theorem trim_eq_nil_iff {t : Text} : t.trim = [] ↔ AllBlank t := by
  constructor
  · intro h
    obtain ⟨before, after, hb, ha, ht⟩ := exists_trim t
    rw [h, List.append_nil] at ht
    rw [ht]
    exact fun c hc => (List.mem_append.1 hc).elim (hb c) (ha c)
  · intro h
    have hpad := trim_pad h (List.forall_mem_nil _) []
    rwa [List.append_nil, List.append_nil] at hpad

@[simp]
theorem trim_trim (t : Text) : t.trim.trim = t.trim := by
  obtain ⟨before, after, hb, ha, ht⟩ := exists_trim t
  have h : t.trim = t.trim.trim := by
    conv_lhs => rw [ht]
    exact trim_pad hb ha _
  exact h.symm

theorem not_isBlank_head_trim {t rest : Text} {c : Char} (h : t.trim = c :: rest) :
    isBlank c = false := by
  have hp : t.trim <+: t.dropWhile isBlank := by
    unfold trim trimStart
    rw [trimEnd_eq_rdropWhile]
    exact List.rdropWhile_prefix isBlank _
  obtain ⟨more, hm⟩ := hp
  have hn := List.head?_dropWhile_not isBlank t
  rw [← hm, h] at hn
  exact hn

theorem not_isBlank_getLast_trim {t : Text} (h : t.trim ≠ []) :
    isBlank (t.trim.getLast h) = false := by
  have hl := List.rdropWhile_last_not isBlank (t.dropWhile isBlank)
  unfold trim trimStart at h ⊢
  simp only [trimEnd_eq_rdropWhile] at h ⊢
  exact Bool.eq_false_iff.2 (hl h)

theorem trimEnd_append_of_not_isBlank (s : Text) {t : Text} (ht : t ≠ [])
    (h : isBlank (t.getLast ht) = false) : trimEnd (s ++ t) = s ++ t := by
  rw [trimEnd_eq_rdropWhile, List.rdropWhile_eq_self_iff]
  intro hst
  rw [List.getLast_append_of_ne_nil hst ht, h]
  exact Bool.false_ne_true

theorem getLast?_of_trimEnd {t : Text} (h : t.trimEnd = t) :
    ∀ c ∈ t.getLast?, isBlank c = false := by
  rw [trimEnd_eq_rdropWhile, List.rdropWhile_eq_self_iff] at h
  intro c hc
  obtain ⟨ht, rfl⟩ := List.mem_getLast?_eq_getLast hc
  exact Bool.eq_false_iff.2 (h ht)

theorem trim_eq_nil_iff_of_trimEnd {t : Text} (h : t.trimEnd = t) : t.trim = [] ↔ t = [] := by
  rw [trim_eq_nil_iff]
  constructor
  · intro hb
    rw [← h, trimEnd_eq_rdropWhile, List.rdropWhile_eq_nil_iff]
    exact hb
  · rintro rfl
    exact List.forall_mem_nil _

/-! ## Lines -/

/-- Lines with a line feed behind each of them. -/
def unlines (lines : List Text) : Text := lines.flatMap (· ++ ['\n'])

@[simp]
theorem unlines_nil : unlines [] = [] := rfl

@[simp]
theorem unlines_cons (line : Text) (lines : List Text) :
    unlines (line :: lines) = line ++ '\n' :: unlines lines := by
  simp [unlines]

theorem unlines_eq_join : ∀ {lines : List Text}, lines ≠ [] →
    unlines lines = join ['\n'] lines ++ ['\n']
  | [line], _ => by simp [join]
  | line :: next :: lines, _ => by
    have ih : unlines (next :: lines) = join ['\n'] (next :: lines) ++ ['\n'] :=
      unlines_eq_join (List.cons_ne_nil next lines)
    rw [unlines_cons, ih, show join ['\n'] (line :: next :: lines)
      = line ++ ['\n'] ++ join ['\n'] (next :: lines) from rfl]
    simp

/-- A text that one line can hold and be read back. -/
def IsLine (t : Text) : Prop := '\n' ∉ t ∧ t.getLast? ≠ some '\r'

theorem lines_cons {c : Char} {t : Text} (hc : c ≠ '\n') (hr : c = '\r' → t.head? ≠ some '\n') :
    lines (c :: t) = extendFirst c (lines t) := by
  rw [lines]
  · exact hc
  · rintro rest rfl rfl
    exact hr rfl rfl

theorem lines_append_newline (rest : Text) : ∀ {line : Text}, IsLine line →
    lines (line ++ '\n' :: rest) = line :: lines rest
  | [], _ => rfl
  | c :: line, h => by
    obtain ⟨hn, hl⟩ := h
    rw [List.mem_cons, not_or] at hn
    -- a carriage return is not the last character, and what follows it is no line feed
    have hr : c = '\r' → (line ++ '\n' :: rest).head? ≠ some '\n' := by
      rintro rfl
      rcases line with _ | ⟨d, line⟩
      · exact absurd rfl hl
      · intro hd
        rw [List.cons_append, List.head?_cons, Option.some.injEq] at hd
        exact hn.2 (hd ▸ List.mem_cons_self)
    have hline : IsLine line := by
      refine ⟨hn.2, fun hd => hl ?_⟩
      rcases line with _ | ⟨d, line⟩
      · cases hd
      · rwa [List.getLast?_cons_cons]
    rw [List.cons_append, lines_cons (Ne.symm hn.1) hr, lines_append_newline rest hline]
    rfl

theorem lines_unlines : ∀ {lines : List Text}, (∀ line ∈ lines, IsLine line) →
    (unlines lines).lines = lines
  | [], _ => rfl
  | line :: lines, h => by
    rw [unlines_cons, lines_append_newline _ (h line List.mem_cons_self),
      lines_unlines fun l hl => h l (List.mem_cons_of_mem _ hl)]

theorem lines_of_not_mem : ∀ {t : Text}, t ≠ [] → '\n' ∉ t → lines t = [t]
  | [c], _, hn => by
    rw [List.mem_singleton] at hn
    rw [lines_cons (Ne.symm hn) (by simp)]
    rfl
  | c :: d :: t, _, hn => by
    simp only [List.mem_cons, not_or] at hn
    have hd : (d :: t).head? ≠ some '\n' := by simpa using Ne.symm hn.2.1
    have ht : '\n' ∉ d :: t := by simpa using hn.2
    rw [lines_cons (Ne.symm hn.1) fun _ => hd, lines_of_not_mem (List.cons_ne_nil d t) ht]
    rfl

/-- What stands in front of a line feed is a line, perhaps with a carriage return behind it. -/
theorem exists_line_append_newline (rest : Text) : ∀ {t : Text}, '\n' ∉ t →
    ∃ line, lines (t ++ '\n' :: rest) = line :: lines rest ∧ (t = line ∨ t = line ++ ['\r'])
  | [], _ => ⟨[], rfl, .inl rfl⟩
  | c :: t, hn => by
    simp only [List.mem_cons, not_or] at hn
    by_cases hr : c = '\r' ∧ t = []
    · obtain ⟨rfl, rfl⟩ := hr
      exact ⟨[], rfl, .inr rfl⟩
    · have hhead : c = '\r' → (t ++ '\n' :: rest).head? ≠ some '\n' := by
        rintro rfl
        rcases t with _ | ⟨d, t⟩
        · simp at hr
        · simp only [List.mem_cons, not_or] at hn
          simpa using Ne.symm hn.2.1
      obtain ⟨line, hlines, hline⟩ := exists_line_append_newline rest hn.2
      refine ⟨c :: line, ?_, by simpa using hline⟩
      rw [List.cons_append, lines_cons (Ne.symm hn.1) hhead, hlines]
      rfl

theorem newline_not_mem_lines (source : Text) : ∀ line ∈ source.lines, '\n' ∉ line := by
  fun_induction lines source with
  | case1 => simp
  | case2 rest ih => simpa using ih
  | case3 rest ih => simpa using ih
  | case4 c rest hc _ ih =>
    rcases hl : lines rest with _ | ⟨first, more⟩
    · simpa [extendFirst] using fun h => hc h.symm
    · rw [hl] at ih
      have hf := ih first List.mem_cons_self
      have hm : ∀ line ∈ more, '\n' ∉ line := fun l h => ih l (List.mem_cons_of_mem _ h)
      simpa [extendFirst, hf] using ⟨fun h => hc h.symm, hm⟩

/-- The first of a text's lines are the lines of a start of the text. -/
theorem exists_start_lines {source : Text} {before after : List Text}
    (h : source.lines = before ++ after) :
    ∃ start : Text, start <+: source ∧ start.lines = before := by
  fun_induction lines source generalizing before with
  | case1 => exact ⟨[], List.nil_prefix, (List.nil_eq_append_iff.1 h).1.symm⟩
  | case2 rest ih =>
    rcases before with _ | ⟨first, before⟩
    · exact ⟨[], List.nil_prefix, rfl⟩
    · obtain ⟨rfl, hrest⟩ := List.cons.inj (h.trans (List.cons_append ..))
      obtain ⟨start, ⟨more, rfl⟩, rfl⟩ := ih hrest
      exact ⟨'\n' :: start, ⟨more, rfl⟩, rfl⟩
  | case3 rest ih =>
    rcases before with _ | ⟨first, before⟩
    · exact ⟨[], List.nil_prefix, rfl⟩
    · obtain ⟨rfl, hrest⟩ := List.cons.inj (h.trans (List.cons_append ..))
      obtain ⟨start, ⟨more, rfl⟩, rfl⟩ := ih hrest
      exact ⟨'\r' :: '\n' :: start, ⟨more, rfl⟩, rfl⟩
  | case4 c rest hc hr ih =>
    rcases before with _ | ⟨first, before⟩
    · exact ⟨[], List.nil_prefix, rfl⟩
    rcases hl : lines rest with _ | ⟨line, more⟩
    · rw [hl] at h
      obtain ⟨rfl, hrest⟩ := List.cons.inj (h.trans (List.cons_append ..))
      refine ⟨[c], ⟨rest, rfl⟩, ?_⟩
      rw [lines_cons hc (by simp), (List.nil_eq_append_iff.1 hrest).1]
      rfl
    · rw [hl] at h
      obtain ⟨rfl, hrest⟩ := List.cons.inj (h.trans (List.cons_append ..))
      have hlines : lines rest = (line :: before) ++ after := by
        rw [hl, hrest, List.cons_append]
      obtain ⟨start, ⟨more', rfl⟩, hs⟩ := ih hlines
      refine ⟨c :: start, ⟨more', rfl⟩, ?_⟩
      rw [lines_cons hc, hs]
      · rfl
      · intro hcr hd
        obtain ⟨tail, rfl⟩ := List.head?_eq_some_iff.1 hd
        exact hr (tail ++ more') hcr rfl

end BlockDocument.Text
