import BlockDocument.Decode.Field
import BlockDocument.Document.Content

/-!
# Decoding runs

A run is written as a text or as an object. The object's `type` makes it a link or an image, and
without either it is a styled text. An array may give the fields of the object in order. A list
item or quoted paragraph is an array of runs, or an object that holds one as its `content`.
-/

namespace BlockDocument.Decode

open BlockDocument (Json)

/-- What the object form of a run says. -/
structure RunFields where
  kind : Option Text := none
  text : Text := []
  url : Option Text := none
  alternative : Text := []
  style : Style := {}
  deriving DecidableEq, Repr

namespace RunFields

/-- The fields of the object form of a run. -/
def fields : Fields RunFields where
  names := ["type", "text", "url", "alt", "bold", "italic", "underline", "strike"].map
    String.toList
  assign name value r :=
    if name = "type".toList then (optionalText value).map fun t => { r with kind := t }
    else if name = "text".toList then (Decode.text value).map fun t => { r with text := t }
    else if name = "url".toList then (optionalText value).map fun t => { r with url := t }
    else if name = "alt".toList then
      (Decode.text value).map fun t => { r with alternative := t }
    else if name = "bold".toList then
      (bool value).map fun b => { r with style := { r.style with bold := b } }
    else if name = "italic".toList then
      (bool value).map fun b => { r with style := { r.style with italic := b } }
    else if name = "underline".toList then
      (bool value).map fun b => { r with style := { r.style with underline := b } }
    else (bool value).map fun b => { r with style := { r.style with strike := b } }

/-- The run that the object form stands for. A link without an address leads to `#`. -/
def run (r : RunFields) : Run :=
  if r.kind = some "link".toList then .link r.text (r.url.getD "#".toList)
  else if r.kind = some "image".toList then .image (r.url.getD []) r.alternative
  else .styled r.text r.style

end RunFields

/-- How many items the array form of a run needs at least: its last field without a default is
the address. -/
def minRunItems : Nat := 3

/-- Decodes a run. -/
def run : Json → Decoded Run
  | .text t => .ok (.plain t)
  | v =>
    match RunFields.fields.flexible? minRunItems {} v with
    | some r => .ok r.run
    | none => .error (.noForm .run)

/-- Decodes an array of runs. -/
def runs : Json → Decoded (List Run) := list run

/-- The fields of the object form of a sequence of runs. -/
def sequenceFields : Fields (List Run) where
  names := ["content".toList]
  assign _ value _ := runs value

/-- Decodes a sequence of runs: an array of them, or something that holds one. -/
def runSequence (v : Json) : Decoded (List Run) :=
  match runs v with
  | .ok rs => .ok rs
  | .error _ =>
    match sequenceFields.ofObject? [] v with
    | some rs => .ok rs
    | none => .error (.noForm .sequence)

end BlockDocument.Decode
