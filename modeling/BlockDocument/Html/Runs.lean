import BlockDocument.Html.Markup
import BlockDocument.Document.Content

/-!
# Runs as markup

Runs are written one after the other. The styles of a run wrap it in a fixed order, from the
inside: strong, emphasis, underline, strike.
-/

namespace BlockDocument.Html

/-- Wraps markup in an element when a style asks for it. -/
def wrapIf (wanted : Bool) (tag : Tag) (attributes : List Attribute) (content : List Markup) :
    List Markup :=
  if wanted then element tag attributes content else content

/-- Markup in the elements of a style. -/
def styledMarkup (style : Style) (content : List Markup) : List Markup :=
  wrapIf style.strike .span [.style "text-decoration: line-through".toList]
    (wrapIf style.underline .span [.style "text-decoration: underline".toList]
      (wrapIf style.italic .em [] (wrapIf style.bold .strong [] content)))

/-- One run. A link opens in a context of its own. -/
def runMarkup : Run → List Markup
  | .plain content => [.text content]
  | .styled content style => styledMarkup style [.text content]
  | .link content url =>
    textElement .a
      [.href url, .target "_blank".toList, .rel "noopener noreferrer".toList] content
  | .image url alternative => [.image url alternative]

/-- Runs in order. -/
def runsMarkup (runs : List Run) : List Markup := runs.flatMap runMarkup

end BlockDocument.Html
