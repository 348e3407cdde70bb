import BlockDocument.Decode.Content
import BlockDocument.Document.Block

/-!
# Decoding blocks

A block is an object with a `type`. Its other members are the fields of its kind, or the
attributes of a block of a kind that is not known. Before anything else is decoded the members of
all objects in a block are sorted by key, and of several under one key the last is kept: so it
does not matter in which order members are written, except that the first mismatch in the order
of the keys is reported.
-/

namespace BlockDocument

mutual

/-- The same value with the members of all objects in the order of their keys. -/
def Json.sorted : Json → Json
  | .array items => .array (sortedItems items)
  | .object members => .object (Dictionary.ofList (sortedMembers members)).entries
  | v => v

/-- The items of an array, each with its members sorted. -/
def Json.sortedItems : List Json → List Json
  | [] => []
  | v :: vs => v.sorted :: sortedItems vs

/-- The members of an object, the members of each value being sorted. -/
def Json.sortedMembers : List (Text × Json) → List (Text × Json)
  | [] => []
  | (key, value) :: members => (key, value.sorted) :: sortedMembers members

end

namespace Decode

/-- Decodes something made of fields from its object form, any of its defaults being in `s`. -/
def ofObject {σ : Type} (f : Fields σ) (s : σ) (members : List (Text × Json)) : Decoded σ :=
  f.ofMembers [] s members

/-- The fields of the document's properties. -/
def metaFields : Fields Meta where
  names := ["props".toList]
  assign _ value m := (dictionary Scalar.ofJson value).map fun d => { m with props := d }

/-- The fields of prose. -/
def proseFields : Fields Prose where
  names := ["content".toList]
  assign _ value p := (text value).map fun t => { p with content := t }

/-- The fields of a slide. -/
def slideFields : Fields Slide where
  names := ["title", "layout", "content", "bullets"].map String.toList
  assign name value s :=
    if name = "title".toList then (text value).map fun t => { s with title := t }
    else if name = "layout".toList then
      (text value).map fun t => { s with layout := .ofName t }
    else if name = "content".toList then
      (list slideContent value).map fun c => { s with content := c }
    else (list text value).map fun b => { s with bullets := b }

/-- The fields of a sheet. -/
def sheetFields : Fields Sheet where
  names := ["name", "cols", "data"].map String.toList
  assign name value s :=
    if name = "name".toList then (text value).map fun t => { s with name := t }
    else if name = "cols".toList then (list text value).map fun c => { s with columns := c }
    else (dictionary Scalar.ofJson value).map fun d => { s with data := d }

/-- The fields of the object form of a table cell. -/
def cellFields : Fields Text where
  names := ["text".toList]
  assign _ value _ := text value

/-- Decodes a table cell: a text, or something that holds one. -/
def tableCell : Json → Decoded Text
  | .text t => .ok t
  | v =>
    match cellFields.ofObject? [] v with
    | some t => .ok t
    | none => .error (.noForm .cell)

/-- The fields of a table row. -/
def rowFields : Fields (List Text) where
  names := ["cells".toList]
  assign _ value _ := list tableCell value

/-- Decodes a table row: an object, or an array that holds its cells. -/
def tableRow : Json → Decoded (List Text)
  | .object members => ofObject rowFields [] members
  | .array items =>
    match rowFields.ofItems rowFields.names [] items with
    | .error e => .error e
    | .ok (cells, []) => .ok cells
    | .ok (_, _ :: _) => .error (.rowTooLong items.length)
  | v => mismatch v .tableRow

/-- The fields of a table. -/
def tableFields : Fields Table where
  names := ["caption", "style", "headers", "alignment", "rows"].map String.toList
  assign name value t :=
    if name = "caption".toList then (optionalText value).map fun c => { t with caption := c }
    else if name = "style".toList then (text value).map fun s => { t with style := s }
    else if name = "headers".toList then
      (list text value).map fun h => { t with headers := h }
    else if name = "alignment".toList then
      (list text value).map fun a => { t with alignment := a.map .ofName }
    else (list tableRow value).map fun r => { t with rows := r }

/-- The fields of a chart. -/
def chartFields : Fields Chart where
  names := ["title", "chart_type", "data"].map String.toList
  meaning name := if name = "chartType".toList then "chart_type".toList else name
  assign name value c :=
    if name = "title".toList then (text value).map fun t => { c with title := t }
    else if name = "chart_type".toList then
      (text value).map fun t => { c with chartType := t }
    else (list .ok value).map fun d => { c with data := d }

/-- The fields of a diagram. -/
def diagramFields : Fields Diagram where
  names := ["title", "engine", "code"].map String.toList
  assign name value d :=
    if name = "title".toList then (optionalText value).map fun t => { d with title := t }
    else if name = "engine".toList then (optionalText value).map fun e => { d with engine := e }
    else (text value).map fun c => { d with code := c }

/-- The fields of a listing. -/
def listingFields : Fields Listing where
  names := ["lang", "caption", "code"].map String.toList
  meaning name := if name = "language".toList then "lang".toList else name
  assign name value l :=
    if name = "lang".toList then (text value).map fun t => { l with language := t }
    else if name = "caption".toList then
      (optionalText value).map fun c => { l with caption := c }
    else (text value).map fun c => { l with code := c }

/-- Decodes a block of the given kind from its other members. -/
def blockOfKind (kind : Text) (rest : Dictionary Json) : Decoded Block :=
  let members := rest.entries
  if kind = "meta".toList then (ofObject metaFields {} members).map .properties
  else if kind = "doc".toList then (ofObject proseFields {} members).map .doc
  else if kind = "slide".toList then (ofObject slideFields {} members).map .slide
  else if kind = "sheet".toList then (ofObject sheetFields {} members).map .sheet
  else if kind = "table".toList then (ofObject tableFields {} members).map .table
  else if kind = "chart".toList then (ofObject chartFields {} members).map .chart
  else if kind = "diagram".toList then (ofObject diagramFields {} members).map .diagram
  else if kind = "osfcode".toList ∨ kind = "code".toList then
    (ofObject listingFields {} members).map .code
  else .ok (.unknown ⟨kind, rest⟩)

/-- Decodes a block from its members. -/
def blockOfMembers (members : Dictionary Json) : Decoded Block :=
  match members.get? "type".toList with
  | none => .error .missingType
  | some (.text kind) =>
    (blockOfKind kind (members.erase "type".toList)).mapError (.invalidBlock kind)
  | some _ => .error .kindNotText

/-- Decodes a block. -/
def block : Json → Decoded Block
  | .object members => blockOfMembers (.ofList (Json.sortedMembers members))
  | _ => .error .missingType

end Decode

end BlockDocument
