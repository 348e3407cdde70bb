import BlockDocument.Html.Runs
import BlockDocument.Proofs.Lexeme

/-!
# Reading runs back

Written runs are read as a reader of the page does: split at the tags, with the entities undone once
between them and in the values of their attributes. What is read is what the runs say, run by run
(`runs_read_back`): nothing that stands in a field of a run is written without being escaped, or
escaped twice. The text outside the tags is the plain text of the runs, but for the images, whose
alternative texts stand in attributes.
-/

namespace BlockDocument

/-- The elements that a style asks for, the outermost one first. -/
def Style.elements (style : Style) : List (Text × List (Text × Text)) :=
  (if style.strike then [("span".toList,
      [("style".toList, "text-decoration: line-through".toList)])] else [])
    ++ (if style.underline then [("span".toList,
      [("style".toList, "text-decoration: underline".toList)])] else [])
    ++ (if style.italic then [("em".toList, [])] else [])
    ++ (if style.bold then [("strong".toList, [])] else [])

/-- Whether a run is an image. -/
def Run.isImage : Run → Bool
  | image .. => true
  | plain _ | styled .. | link .. => false

namespace Html

namespace Lexeme

/-- A lexeme with its entities undone. -/
def decoded? : Lexeme → Option Lexeme
  | char c => some (char c)
  | entity name => (entity name).char?.map char
  | opening name attributes =>
    (attributes.mapM fun a => (decode? a.2).map (a.1, ·)).map (opening name)
  | closing name => some (closing name)
  | void name attributes =>
    (attributes.mapM fun a => (decode? a.2).map (a.1, ·)).map (void name)

end Lexeme

/-- Reads written content with its entities undone once. -/
def readDecoded? (html : Text) : Option (List Lexeme) :=
  (Lexeme.readAll html).bind (·.mapM Lexeme.decoded?)

/-- Lexemes between the tags of an element. -/
def inElement (e : Text × List (Text × Text)) (inside : List Lexeme) : List Lexeme :=
  .opening e.1 e.2 :: inside ++ [.closing e.1]

/-- What a run says, as it is to be read. -/
def runLexemes : Run → List Lexeme
  | .plain content => content.map .char
  | .styled content style => style.elements.foldr inElement (content.map .char)
  | .link content url =>
    inElement ("a".toList, [("href".toList, url), ("target".toList, "_blank".toList),
      ("rel".toList, "noopener noreferrer".toList)]) (content.map .char)
  | .image url alternative =>
    [.void "img".toList [("src".toList, url), ("alt".toList, alternative)]]

/-! ## Markup -/

/-- A piece of markup as it is read with its entities undone. -/
def markupLexemes : Markup → List Lexeme
  | .text content => content.map .char
  | .opening tag attributes => [.opening tag.name (attributes.map fun a => (a.name, a.value))]
  | .closing tag => [.closing tag.name]
  | .image source alternative =>
    [.void "img".toList [("src".toList, source), ("alt".toList, alternative)]]

theorem mapM_append_of_eq_some {α β : Type} {f : α → Option β} {xs ys : List α} {as bs : List β}
    (hx : xs.mapM f = some as) (hy : ys.mapM f = some bs) : (xs ++ ys).mapM f = some (as ++ bs) := by
  rw [List.mapM_append, hx, hy]
  rfl

theorem mapM_decode?_escape : ∀ attributes : List (Text × Text),
    (attributes.map fun a => (a.1, escape a.2)).mapM (fun a => (decode? a.2).map (a.1, ·))
      = some attributes
  | [] => rfl
  | a :: attributes => by
    rw [List.map_cons, List.mapM_cons, mapM_decode?_escape attributes, decode?_escape]
    rfl

theorem mapM_decoded?_text : ∀ content : Text,
    (content.map Lexeme.ofChar).mapM Lexeme.decoded? = some (content.map .char)
  | [] => rfl
  | c :: content => by
    have hc : (Lexeme.ofChar c).decoded? = some (.char c) := by
      have hchar := Lexeme.char?_ofChar c
      rcases Lexeme.ofChar_cases c with ⟨name, -, ho, -⟩ | ⟨-, ho, -⟩
      · rw [ho] at hchar ⊢
        exact congrArg (Option.map Lexeme.char) hchar
      · rw [ho]
        rfl
    rw [List.map_cons, List.mapM_cons, hc, mapM_decoded?_text content]
    rfl

theorem mapM_decoded?_ofMarkup (m : Markup) :
    (Lexeme.ofMarkup m).mapM Lexeme.decoded? = some (markupLexemes m) := by
  have hsingle : ∀ {tag read : Lexeme}, tag.decoded? = some read →
      [tag].mapM Lexeme.decoded? = some [read] := by
    intro tag read h
    rw [List.mapM_cons, h]
    rfl
  cases m with
  | text content => exact mapM_decoded?_text content
  | opening tag attributes =>
    have hvalues := mapM_decode?_escape (attributes.map fun a => (a.name, a.value))
    rw [List.map_map] at hvalues
    exact hsingle (congrArg (Option.map (Lexeme.opening tag.name)) hvalues)
  | closing tag => rfl
  | image source alternative =>
    have hvalues := mapM_decode?_escape [("src".toList, source), ("alt".toList, alternative)]
    exact hsingle (congrArg (Option.map (Lexeme.void "img".toList)) hvalues)

/-- What was written as markup is read as what the markup says. -/
theorem readDecoded?_writeAll (ms : List Markup) :
    readDecoded? (Markup.writeAll ms) = some (ms.flatMap markupLexemes) := by
  unfold readDecoded?
  rw [Lexeme.readAll_writeAll, Option.bind_some]
  induction ms with
  | nil => rfl
  | cons m ms ih => exact mapM_append_of_eq_some (mapM_decoded?_ofMarkup m) ih

/-! ## Runs -/

theorem flatMap_markupLexemes_element (tag : Tag) (attributes : List Attribute)
    (content : List Markup) :
    (element tag attributes content).flatMap markupLexemes
      = inElement (tag.name, attributes.map fun a => (a.name, a.value))
          (content.flatMap markupLexemes) := by
  rw [element, List.flatMap_append, List.flatMap_cons]
  rfl

theorem flatMap_markupLexemes_wrapIf (wanted : Bool) (tag : Tag) (attributes : List Attribute)
    (content : List Markup) :
    (wrapIf wanted tag attributes content).flatMap markupLexemes
      = (if wanted then [(tag.name, attributes.map fun a => (a.name, a.value))] else []).foldr
          inElement (content.flatMap markupLexemes) := by
  unfold wrapIf
  split
  · exact flatMap_markupLexemes_element tag attributes content
  · rfl

theorem flatMap_markupLexemes_runMarkup (run : Run) :
    (runMarkup run).flatMap markupLexemes = runLexemes run := by
  cases run with
  | plain content => exact List.append_nil _
  | styled content style =>
    have htext : [Markup.text content].flatMap markupLexemes = content.map .char :=
      List.append_nil _
    simp only [runMarkup, styledMarkup, flatMap_markupLexemes_wrapIf, htext]
    simp only [runLexemes, Style.elements, List.foldr_append]
    rfl
  | link content url =>
    refine (flatMap_markupLexemes_element .a _ [.text content]).trans ?_
    exact congrArg (inElement _) (List.append_nil _)
  | image url alternative => rfl

/-! ## Text outside the tags -/

theorem filterMap_char?_inElement (e : Text × List (Text × Text)) (inside : List Lexeme) :
    (inElement e inside).filterMap Lexeme.char? = inside.filterMap Lexeme.char? := by
  rw [inElement, List.filterMap_append, List.filterMap_cons_none rfl,
    List.filterMap_cons_none rfl, List.filterMap_nil, List.append_nil]

theorem filterMap_char?_runLexemes (run : Run) :
    (runLexemes run).filterMap Lexeme.char? = if run.isImage then [] else run.plainText := by
  have htext : ∀ content : Text, (content.map Lexeme.char).filterMap Lexeme.char? = content := by
    intro content
    simp [List.filterMap_map, Function.comp_def, Lexeme.char?]
  have helements : ∀ (es : List (Text × List (Text × Text))) (inside : List Lexeme),
      (es.foldr inElement inside).filterMap Lexeme.char? = inside.filterMap Lexeme.char? := by
    intro es inside
    induction es with
    | nil => rfl
    | cons e es ih => rw [List.foldr_cons, filterMap_char?_inElement, ih]
  cases run with
  | plain content => exact htext content
  | styled content style => exact (helements _ _).trans (htext content)
  | link content url => exact (filterMap_char?_inElement _ _).trans (htext content)
  | image url alternative => rfl

theorem filterMap_char?_runs : ∀ runs : List Run,
    (runs.flatMap runLexemes).filterMap Lexeme.char?
      = plainText (runs.filter fun run => !run.isImage)
  | [] => rfl
  | run :: runs => by
    rw [List.flatMap_cons, List.filterMap_append, filterMap_char?_runLexemes,
      filterMap_char?_runs runs]
    by_cases h : run.isImage = true
    · rw [if_pos h, List.filter_cons_of_neg (by simp [h])]
      rfl
    · rw [if_neg h, List.filter_cons_of_pos (by simp [h])]
      rfl

/-- Written runs are read as what they say, run by run; and the text outside their tags is their
plain text without that of the images. -/
theorem runs_read_back (runs : List Run) :
    ∃ lexemes, readDecoded? (Markup.writeAll (runsMarkup runs)) = some lexemes
      ∧ lexemes = runs.flatMap runLexemes
      ∧ lexemes.filterMap Lexeme.char? = plainText (runs.filter fun run => !run.isImage) := by
  have hread : (runsMarkup runs).flatMap markupLexemes = runs.flatMap runLexemes := by
    unfold runsMarkup
    rw [List.flatMap_assoc]
    simp only [flatMap_markupLexemes_runMarkup]
  refine ⟨_, readDecoded?_writeAll _, hread, ?_⟩
  rw [hread, filterMap_char?_runs]

end Html

end BlockDocument
