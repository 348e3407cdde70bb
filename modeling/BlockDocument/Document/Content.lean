import BlockDocument.Text.Basic

/-!
# Runs and slide content

A run is a piece of inline text: plain, styled, a link or an image. Slide content is a sequence
of paragraphs, lists, quotations, listings and images; what is of an unsupported kind is kept as
such, so that its loss can be reported.
-/

namespace BlockDocument

/-- The styles that a run may combine. -/
structure Style where
  bold : Bool := false
  italic : Bool := false
  underline : Bool := false
  strike : Bool := false
  deriving DecidableEq, Repr

/-- A piece of inline text. -/
inductive Run
  | plain (content : Text)
  | styled (content : Text) (style : Style)
  | link (content : Text) (url : Text)
  | image (url : Text) (alternative : Text)
  deriving DecidableEq, Repr

namespace Run

/-- A run without its markup. An image leaves its alternative text. -/
def plainText : Run → Text
  | plain content | styled content _ | link content _ => content
  | image _ alternative => alternative

end Run

/-- Runs without their markup, one after the other. -/
def plainText (runs : List Run) : Text := runs.flatMap Run.plainText

/-- A part of a slide's structured content. -/
inductive SlideContent
  | paragraph (runs : List Run)
  | unorderedList (items : List (List Run))
  | orderedList (items : List (List Run))
  | quotation (paragraphs : List (List Run))
  | code (content : Text)
  | image (url : Text) (alternative : Text)
  | unsupported
  deriving DecidableEq, Repr

end BlockDocument
