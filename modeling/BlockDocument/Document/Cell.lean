import BlockDocument.Text.Blank
import BlockDocument.Text.Natural

/-!
# Cell keys

The key of a sheet cell is its row and its column with a comma between them, both counted from
one. Blank characters around the two numbers do not matter.
-/

namespace BlockDocument

/-- The place of a cell in a sheet, counted from one. -/
structure Cell where
  row : Nat
  column : Nat
  deriving DecidableEq, Repr

/-- Reads the key of a cell. -/
def Cell.ofKey? (key : Text) : Option Cell :=
  match key.splitFirst ',' with
  | none => none
  | some (row, column) =>
    match row.trim.readCount?, column.trim.readCount? with
    | some row, some column => if 1 ≤ row ∧ 1 ≤ column then some ⟨row, column⟩ else none
    | _, _ => none

end BlockDocument
