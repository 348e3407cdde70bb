import BlockDocument.Document.Block
import BlockDocument.Html.Markup

/-!
# Tables

Every header and cell carries the alignment of its column.
-/

namespace BlockDocument.Html

/-- The attribute that aligns the text of a cell. -/
def alignmentStyle (alignment : Alignment) : Attribute :=
  .style ("text-align: ".toList ++ alignment.name)

/-- The cells of a row from the given column on. -/
def tableCells (table : Table) (tag : Tag) : (column : Nat) → List Text → List Markup
  | _, [] => []
  | column, cell :: cells =>
    textElement tag [alignmentStyle (table.alignmentOf column)] cell
      ++ tableCells table tag (column + 1) cells

/-- An element that holds a text, if there is one. -/
def optionalElement (tag : Tag) (attributes : List Attribute) : Option Text → List Markup
  | some content => textElement tag attributes content
  | none => []

/-- The row of headers, if there are any. -/
def tableHead (table : Table) : List Markup :=
  if table.headers.isEmpty then []
  else element .thead [] (element .tr [] (tableCells table .th 0 table.headers))

/-- A table. -/
def tableMarkup (table : Table) : List Markup :=
  element .table [.className ("osf-table osf-table-".toList ++ table.style)]
    (optionalElement .caption [] table.caption ++ tableHead table ++
      element .tbody []
        (table.rows.flatMap fun row => element .tr [] (tableCells table .td 0 row)))

end BlockDocument.Html
