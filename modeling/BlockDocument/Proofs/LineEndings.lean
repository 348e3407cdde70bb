import BlockDocument.Proofs.Formatting
import BlockDocument.Html.Prose

/-!
# Line endings

A carriage return in front of a line feed belongs to the end of the line. A second one does not,
so in a text that gets one more everywhere a line is as before, or it is the line with a carriage
return behind it (`lines_crlf`). As a carriage return is a blank character, nobody who trims lines
notices, and neither does a check, which looks at marks.
-/

namespace BlockDocument

namespace Text

/-- A text with a carriage return put in front of every line feed. -/
def crlf (t : Text) : Text := t.flatMap fun c => if c = '\n' then ['\r', '\n'] else [c]

@[simp]
theorem crlf_nil : crlf [] = [] := rfl

@[simp]
theorem crlf_newline (t : Text) : crlf ('\n' :: t) = '\r' :: '\n' :: crlf t := rfl

theorem crlf_cons {c : Char} (hc : c ≠ '\n') (t : Text) : crlf (c :: t) = c :: crlf t := by
  unfold crlf
  rw [List.flatMap_cons, if_neg hc]
  rfl

/-- A text with carriage returns does not begin with a bare line feed. -/
theorem head?_crlf (t : Text) : (crlf t).head? ≠ some '\n' := by
  rcases t with _ | ⟨c, t⟩
  · exact nofun
  · by_cases hc : c = '\n'
    · rw [hc, crlf_newline, List.head?_cons]
      decide
    · rw [crlf_cons hc, List.head?_cons]
      exact fun h => hc (Option.some.inj h)

/-- That a line is another one, or that with a carriage return behind it. -/
def SameLine (line other : Text) : Prop := other = line ∨ other = line ++ ['\r']

theorem sameLine_extendFirst (c : Char) {lines others : List Text}
    (h : List.Forall₂ SameLine lines others) :
    List.Forall₂ SameLine (extendFirst c lines) (extendFirst c others) := by
  cases h with
  | nil => exact .cons (.inl rfl) .nil
  | cons hl hs =>
    refine .cons ?_ hs
    rcases hl with rfl | rfl
    · exact .inl rfl
    · exact .inr rfl

theorem lines_crlf (t : Text) : List.Forall₂ SameLine t.lines (crlf t).lines := by
  fun_induction lines t with
  | case1 => exact .nil
  | case2 rest ih => exact .cons (.inl rfl) ih
  | case3 rest ih =>
    -- of the two carriage returns the first is left in the line
    have hreturn : ('\r' :: '\n' :: crlf rest).head? ≠ some '\n' := by
      rw [List.head?_cons]
      decide
    have hlines : (crlf ('\r' :: '\n' :: rest)).lines = ['\r'] :: (crlf rest).lines := by
      rw [crlf_cons (by decide), crlf_newline, lines_cons (by decide) fun _ => hreturn]
      rfl
    rw [hlines]
    exact .cons (.inr rfl) ih
  | case4 c rest hc _ ih =>
    rw [crlf_cons hc, lines_cons hc fun _ => head?_crlf rest]
    exact sameLine_extendFirst c ih

section

variable {α : Type} (f : Text → α) (hf : ∀ line, f (line ++ ['\r']) = f line)
include hf

theorem map_sameLine {lines others : List Text} (h : List.Forall₂ SameLine lines others) :
    others.map f = lines.map f := by
  induction h with
  | nil => rfl
  | cons hl _ ih =>
    rw [List.map_cons, List.map_cons, ih]
    rcases hl with rfl | rfl
    · rfl
    · rw [hf]

/-- What does not see a carriage return behind a line gives the same for all lines. -/
theorem map_lines_crlf (t : Text) : (crlf t).lines.map f = t.lines.map f :=
  map_sameLine f hf (lines_crlf t)

end

theorem allBlank_return : AllBlank ['\r'] := by
  intro c hc
  rw [List.mem_singleton.1 hc]
  rfl

theorem trim_append_return (line : Text) : (line ++ ['\r']).trim = line.trim :=
  trim_pad (List.forall_mem_nil _) allBlank_return line

end Text

open Text (crlf)

variable (source : Text)

theorem Html.proseLines_crlf : Html.proseLines (crlf source) = Html.proseLines source :=
  Text.map_lines_crlf _ (fun line => by rw [Text.trim_append_return]) source

namespace Source

theorem marks_congr (options : CheckOptions) : ∀ {lines others : List Text} (index : Nat),
    others.map (lineMarks options) = lines.map (lineMarks options) →
      marks options index others = marks options index lines
  | [], [], _, _ => rfl
  | line :: lines, other :: others, index, h => by
    obtain ⟨hline, hlines⟩ := List.cons.inj h
    rw [marks, marks, hline, marks_congr options (index + 1) hlines]

theorem check_crlf (options : CheckOptions) :
    check options (crlf source) = check options source := by
  have hmarks : ∀ line, lineMarks options (line ++ ['\r']) = lineMarks options line := fun line =>
    lineMarks_append_blank options line Text.allBlank_return
  rw [check_eq_report, check_eq_report,
    marks_congr options 0 (Text.map_lines_crlf _ hmarks source)]

theorem FormatState.line_trim (layout : Layout) (s : FormatState) (raw : Text) :
    s.line layout raw.trim = s.line layout raw := by
  unfold FormatState.line
  rw [Text.trim_trim]

/-- Laying out sees the trimmed lines only. -/
theorem laidOut_eq_trim (layout : Layout) :
    laidOut layout source
      = dropEmptyEnd ((source.lines.map Text.trim).foldl (FormatState.line layout) {}).written := by
  rw [List.foldl_map]
  simp only [FormatState.line_trim]
  rfl

theorem format_crlf (layout : Layout) : format layout (crlf source) = format layout source := by
  rw [format_eq_unlines, format_eq_unlines, laidOut_eq_trim, laidOut_eq_trim,
    Text.map_lines_crlf _ Text.trim_append_return]

end Source

/-- Neither prose nor a check nor the formatter sees how lines end. -/
theorem line_endings_ignored :
    Html.Markup.writeAll (Html.proseMarkup (crlf source))
        = Html.Markup.writeAll (Html.proseMarkup source)
      ∧ (∀ options, Source.check options (crlf source) = Source.check options source)
      ∧ ∀ layout, Source.format layout (crlf source) = Source.format layout source := by
  refine ⟨?_, fun options => Source.check_crlf source options,
    fun layout => Source.format_crlf source layout⟩
  unfold Html.proseMarkup
  rw [Html.proseLines_crlf]

end BlockDocument
