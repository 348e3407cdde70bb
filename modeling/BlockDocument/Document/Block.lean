import BlockDocument.Dictionary
import BlockDocument.Document.Content
import BlockDocument.Document.Scalar
import BlockDocument.Text.Blank

/-!
# Blocks

A document is a sequence of blocks, each of a kind that its tag names. The set of kinds is open:
a block of a kind that is not known is kept with all its attributes. Everything optional has a
default, so a block is always fully populated.
-/

namespace BlockDocument

/-- Properties of the whole document. They feed the header of the page. -/
structure Meta where
  props : Dictionary Scalar := .empty

namespace Meta

/-- Sets a property. -/
def withProp (m : Meta) (key : Text) (value : Scalar) : Meta := ⟨m.props.insert key value⟩

/-- A property as it is shown, unless that is blank. -/
def text? (m : Meta) (key : Text) : Option Text :=
  ((m.props.get? key).map Scalar.display).filter fun t => !t.trim.isEmpty

/-- The document's title. -/
def title? (m : Meta) : Option Text := m.text? "title".toList

/-- The document's author. -/
def author? (m : Meta) : Option Text := m.text? "author".toList

/-- The document's date. -/
def date? (m : Meta) : Option Text := m.text? "date".toList

end Meta

/-- Free-form prose. -/
structure Prose where
  content : Text := []
  deriving DecidableEq, Repr

/-- How a slide arranges its body. -/
inductive Layout
  | titleOnly | titleAndContent | twoColumn | threeColumn
  deriving DecidableEq, Repr

namespace Layout

/-- The layout of a name. A name that is not known stands for title and content. -/
def ofName (name : Text) : Layout :=
  if name = "TitleOnly".toList then titleOnly
  else if name = "TwoColumn".toList then twoColumn
  else if name = "ThreeColumn".toList then threeColumn
  else titleAndContent

/-- The class that a slide carries for its layout. -/
def className : Layout → Text
  | titleOnly => "layout-title-only".toList
  | titleAndContent => "layout-title-and-content".toList
  | twoColumn => "layout-two-column".toList
  | threeColumn => "layout-three-column".toList

end Layout

/-- A slide. Structured content, where there is any, stands before the bullets. -/
structure Slide where
  title : Text := []
  layout : Layout := .titleAndContent
  content : List SlideContent := []
  bullets : List Text := []
  deriving DecidableEq, Repr

/-- A sheet. Its cells are sparse and stand under keys such as `3,1`: the row, then the column,
both counted from one. -/
structure Sheet where
  name : Text := "Sheet".toList
  columns : List Text := []
  data : Dictionary Scalar := .empty

/-- How the text of a table's column is aligned. -/
inductive Alignment
  | left | center | right
  deriving DecidableEq, Repr

namespace Alignment

/-- The alignment of a name, whatever the case of its ASCII letters. A name that is not known
stands for the left. -/
def ofName (name : Text) : Alignment :=
  let lower := name.asciiLower
  if lower = "center".toList then center
  else if lower = "right".toList then right
  else left

/-- The name of an alignment. -/
def name : Alignment → Text
  | left => "left".toList
  | center => "center".toList
  | right => "right".toList

end Alignment

/-- A table of text cells. -/
structure Table where
  caption : Option Text := none
  style : Text := "bordered".toList
  headers : List Text := []
  alignment : List Alignment := []
  rows : List (List Text) := []
  deriving DecidableEq, Repr

/-- The alignment of a column; one without an entry is aligned to the left. -/
def Table.alignmentOf (t : Table) (column : Nat) : Alignment :=
  (t.alignment[column]?).getD .left

/-- A chart with its data series. -/
structure Chart where
  title : Text := "Chart".toList
  chartType : Text := "bar".toList
  data : List Json := []
  deriving Repr

/-- The source of a diagram. -/
structure Diagram where
  title : Option Text := none
  engine : Option Text := none
  code : Text := []
  deriving DecidableEq, Repr

/-- A listing of code. -/
structure Listing where
  language : Text := []
  caption : Option Text := none
  code : Text := []
  deriving DecidableEq, Repr

/-- A block of a kind that is not known. -/
structure Unknown where
  kind : Text
  attributes : Dictionary Json := .empty

/-- A unit of a document. -/
inductive Block
  | properties (block : Meta)
  | doc (block : Prose)
  | slide (block : Slide)
  | sheet (block : Sheet)
  | table (block : Table)
  | chart (block : Chart)
  | diagram (block : Diagram)
  | code (block : Listing)
  | unknown (block : Unknown)

namespace Block

/-- The tag of a block. -/
def kind : Block → Text
  | properties _ => "meta".toList
  | doc _ => "doc".toList
  | slide _ => "slide".toList
  | sheet _ => "sheet".toList
  | table _ => "table".toList
  | chart _ => "chart".toList
  | diagram _ => "diagram".toList
  | code _ => "osfcode".toList
  | unknown block => block.kind

/-- The value of an attribute of a block that is to be replaced by a file's blocks: its `src`, or
without one its `path`. -/
def includeTarget? : Block → Option Text
  | unknown block =>
    if block.kind = "include".toList then
      match (block.attributes.get? "src".toList).or (block.attributes.get? "path".toList) with
      | some (.text target) => some target
      | _ => none
    else none
  | _ => none

/-- The properties that a block sets for the whole document. -/
def properties? : Block → Option Meta
  | properties block => some block
  | _ => none

end Block

/-- A sequence of blocks. -/
structure Document where
  blocks : List Block

/-- The document's properties: those of its first block that has any. -/
def Document.properties? (d : Document) : Option Meta := d.blocks.findSome? Block.properties?

end BlockDocument
