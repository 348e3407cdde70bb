import BlockDocument.Html.Prose
import BlockDocument.Html.Sheet
import BlockDocument.Html.Slide
import BlockDocument.Html.Table

/-!
# Blocks as markup

Each block becomes one element, except that the properties of the document are not content. A
chart is only summarised and a diagram shows its source. A block of an unknown kind leaves a
placeholder that names the kind, and a notice.
-/

namespace BlockDocument.Html

/-- The summary of a chart. -/
def chartMarkup (chart : Chart) : List Markup :=
  element .div [.className "osf-chart".toList]
    (textElement .h3 [] chart.title
      ++ textElement .p [] ("Chart type: ".toList ++ chart.chartType)
      ++ textElement .p [] (Text.ofNat chart.data.length ++ " data series".toList))

/-- A diagram's source. -/
def diagramMarkup (diagram : Diagram) : List Markup :=
  element .div [.className "osf-diagram".toList]
    (optionalElement .h3 [] diagram.title
      ++ optionalElement .p [.className "osf-diagram-engine".toList] diagram.engine
      ++ textElement .pre [] diagram.code)

/-- A listing, with its language in a class if it names one. -/
def listingMarkup (listing : Listing) : List Markup :=
  let language :=
    if listing.language.isEmpty then []
    else [Attribute.className ("language-".toList ++ listing.language)]
  element .figure [.className "osf-code".toList]
    (optionalElement .figcaption [.className "osf-code-caption".toList] listing.caption
      ++ element .pre [] (textElement .code language listing.code))

/-- The placeholder of a block of an unknown kind. -/
def unknownRendering (kind : Text) : Rendering where
  markup :=
    element .div [.className "osf-unknown".toList]
      (element .p [] (.text "Unknown block type: ".toList :: textElement .code [] kind))
  notices := [.unknownBlock kind]

/-- One block. -/
def blockRendering (limits : SheetLimits) : Block → Rendering
  | .properties _ => {}
  | .doc block => .pure (element .div [.className "osf-doc".toList] (proseMarkup block.content))
  | .slide block => slideRendering block
  | .sheet block => sheetRendering limits block
  | .table block => .pure (tableMarkup block)
  | .chart block => .pure (chartMarkup block)
  | .diagram block => .pure (diagramMarkup block)
  | .code block => .pure (listingMarkup block)
  | .unknown block => unknownRendering block.kind

/-- Blocks in order. -/
def blocksRendering (limits : SheetLimits) (blocks : List Block) : Rendering :=
  .each (blockRendering limits) blocks

end BlockDocument.Html
