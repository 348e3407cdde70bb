import BlockDocument.Document.Block
import BlockDocument.Document.Cell
import BlockDocument.Html.Rendering

/-!
# Sheets

The sparse cells of a sheet are laid out as a dense grid, cut down to a limited number of rows
and columns. A key that names no cell is reported and ignored, and so is a grid that had to be
cut down. Of two keys for one cell the later one counts.
-/

namespace BlockDocument.Html

/-- The most rows and columns of a sheet that are shown. -/
structure SheetLimits where
  maxRows : Nat := 1000
  maxColumns : Nat := 100
  deriving DecidableEq, Repr

/-- The cells of a sheet, with the last row and column that any of them stands in. The cell that
was placed last comes first. -/
structure Grid where
  cells : List (Cell × Scalar) := []
  rows : Nat := 1
  columns : Nat := 1

namespace Grid

/-- Puts a value into a cell. -/
def place (g : Grid) (cell : Cell) (value : Scalar) : Grid where
  cells := (cell, value) :: g.cells
  rows := max g.rows cell.row
  columns := max g.columns cell.column

/-- The value that a cell shows. -/
def value? (g : Grid) (cell : Cell) : Option Scalar :=
  (g.cells.find? fun placed => placed.1 = cell).map (·.2)

/-- Lays out the entries of the sheet of the given name behind those already placed. -/
def layout (sheet : Text) : Grid → List (Text × Scalar) → Grid × List Notice
  | g, [] => (g, [])
  | g, (key, value) :: entries =>
    match Cell.ofKey? key with
    | some cell => layout sheet (g.place cell value) entries
    | none =>
      let rest := layout sheet g entries
      (rest.1, .malformedCellKey sheet key :: rest.2)

/-- The rows of the grid's upper left part. -/
def body (g : Grid) (rows columns : Nat) : List Markup :=
  (List.range rows).flatMap fun row =>
    element .tr [] ((List.range columns).flatMap fun column =>
      textElement .td []
        (((g.value? ⟨row + 1, column + 1⟩).map Scalar.display).getD []))

end Grid

/-- The row of column names, if there are any. -/
def sheetHead (columns : List Text) : List Markup :=
  if columns.isEmpty then []
  else element .thead [] (element .tr [] (columns.flatMap fun name => textElement .th [] name))

/-- What stands in for the cells of a sheet without any. -/
def emptyBody (columns : Nat) : List Markup :=
  element .tbody [] (element .tr []
    (textElement .td [.colspan (max columns 1), .className "osf-sheet-empty".toList]
      "No data".toList))

/-- The note under a grid that was cut down. -/
def truncationNote (rows columns shownRows shownColumns : Nat) : Text :=
  "Showing ".toList ++ Text.ofNat shownRows ++ " of ".toList ++ Text.ofNat rows
    ++ " rows and ".toList ++ Text.ofNat shownColumns ++ " of ".toList ++ Text.ofNat columns
    ++ " columns".toList

/-- The grid of a sheet that has cells, with the note that it was cut down if it was. -/
def gridRendering (limits : SheetLimits) (sheet : Text) (g : Grid) : Rendering :=
  let shownRows := min g.rows (max limits.maxRows 1)
  let shownColumns := min g.columns (max limits.maxColumns 1)
  let body := element .tbody [] (g.body shownRows shownColumns)
  if shownRows < g.rows ∨ shownColumns < g.columns then
    ⟨body ++ element .tfoot [] (element .tr []
        (textElement .td [.colspan shownColumns, .className "osf-sheet-note".toList]
          (truncationNote g.rows g.columns shownRows shownColumns))),
      [.sheetTruncated sheet g.rows g.columns shownRows shownColumns]⟩
  else .pure body

/-- A sheet. -/
def sheetRendering (limits : SheetLimits) (sheet : Sheet) : Rendering :=
  let laid := Grid.layout sheet.name {} sheet.data.entries
  let body : Rendering :=
    if laid.1.cells.isEmpty then .pure (emptyBody sheet.columns.length)
    else gridRendering limits sheet.name laid.1
  .wrap .div [.className "osf-sheet".toList]
    (.pure (textElement .h3 [] sheet.name) ++
      .wrap .table [] (⟨sheetHead sheet.columns, laid.2⟩ ++ body))

end BlockDocument.Html
