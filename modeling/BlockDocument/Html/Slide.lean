import BlockDocument.Document.Block
import BlockDocument.Html.Heading
import BlockDocument.Html.Rendering
import BlockDocument.Html.Runs

/-!
# Slides

A slide shows its structured content. A slide without any shows its bullets. A paragraph whose
plain text reads as a heading becomes that heading; content of an unsupported kind is left out
and reported.
-/

namespace BlockDocument.Html

/-- A paragraph of runs, or the heading that its plain text reads as. -/
def paragraphOrHeading (runs : List Run) : List Markup :=
  match readHeading? (plainText runs).trim with
  | some (level, content) => headingMarkup level content
  | none => element .p [] (runsMarkup runs)

/-- A list with an item for each sequence of runs. -/
def listMarkup (tag : Tag) (items : List (List Run)) : List Markup :=
  element tag [] (items.flatMap fun item => element .li [] (runsMarkup item))

/-- One part of the content of the slide of the given title. -/
def contentRendering (slide : Text) : SlideContent → Rendering
  | .paragraph runs => .pure (paragraphOrHeading runs)
  | .unorderedList items => .pure (listMarkup .ul items)
  | .orderedList items => .pure (listMarkup .ol items)
  | .quotation paragraphs =>
    .pure (element .blockquote []
      (paragraphs.flatMap fun paragraph => element .p [] (runsMarkup paragraph)))
  | .code content => .pure (element .pre [] (textElement .code [] content))
  | .image url alternative => .pure [.image url alternative]
  | .unsupported => .notice (.skippedContent slide)

/-- The structured content of the slide of the given title. -/
def contentsRendering (slide : Text) (contents : List SlideContent) : Rendering :=
  .each (contentRendering slide) contents

/-- A list of bullets that may hold inline marks. -/
def slideBullets (bullets : List Text) : List Markup :=
  element .ul [] (bullets.flatMap fun bullet => element .li [] (inlineMarkup bullet))

/-- What a slide shows under its title. -/
def slideBody (slide : Slide) : Rendering :=
  if !slide.content.isEmpty then contentsRendering slide.title slide.content
  else if !slide.bullets.isEmpty then .pure (slideBullets slide.bullets)
  else {}

/-- A slide. -/
def slideRendering (slide : Slide) : Rendering :=
  .wrap .section [.className ("osf-slide ".toList ++ slide.layout.className)]
    (.pure (textElement .h2 [] slide.title) ++
      .wrap .div [.className "osf-slide-body".toList] (slideBody slide))

end BlockDocument.Html
