import BlockDocument.Decode.Run

/-!
# Decoding slide content

A part of a slide's content carries its kind as a tag: the `type` of an object, or the first item
of an array. What has a tag that is not known is unsupported content, whatever else it holds.
-/

namespace BlockDocument.Decode

open BlockDocument (Json)

/-- The kinds of slide content that have fields. -/
inductive ContentKind
  | paragraph | unorderedList | orderedList | quotation | code | image
  deriving DecidableEq, Repr

namespace ContentKind

/-- The kind that a tag names. -/
def ofTag? (tag : Text) : Option ContentKind :=
  if tag = "paragraph".toList then some paragraph
  else if tag = "unordered_list".toList then some unorderedList
  else if tag = "ordered_list".toList then some orderedList
  else if tag = "blockquote".toList then some quotation
  else if tag = "code".toList then some code
  else if tag = "image".toList then some image
  else none

/-- Content of a kind with all its defaults. -/
def empty : ContentKind → SlideContent
  | paragraph => .paragraph []
  | unorderedList => .unorderedList []
  | orderedList => .orderedList []
  | quotation => .quotation []
  | code => .code []
  | image => .image [] []

/-- The names of a kind's fields. -/
def fieldNames : ContentKind → List Text
  | paragraph | quotation | code => ["content".toList]
  | unorderedList | orderedList => ["items".toList]
  | image => ["url".toList, "alt".toList]

/-- Sets a field of content. -/
def assignField (name : Text) (value : Json) : SlideContent → Decoded SlideContent
  | .paragraph _ => (runs value).map .paragraph
  | .unorderedList _ => (list runSequence value).map .unorderedList
  | .orderedList _ => (list runSequence value).map .orderedList
  | .quotation _ => (list runSequence value).map .quotation
  | .code _ => (text value).map .code
  | .image url alternative =>
    (text value).map fun t => if name = "url".toList then .image t alternative else .image url t
  | .unsupported => .ok .unsupported

/-- The fields of a kind. -/
def fields (kind : ContentKind) : Fields SlideContent where
  names := kind.fieldNames
  assign := assignField

end ContentKind

/-- Decodes content with the given tag from an object's other members. -/
def contentOfMembers (tag : Text) (members : List (Text × Json)) : Decoded SlideContent :=
  match ContentKind.ofTag? tag with
  | none => .ok .unsupported
  | some kind => kind.fields.ofMembers [] kind.empty members

/-- Decodes content with the given tag from the items behind the tag. -/
def contentOfItems (tag : Text) (items : List Json) : Decoded SlideContent :=
  match ContentKind.ofTag? tag with
  | none => if items.isEmpty then .ok .unsupported else .error (.contentTooLong items.length 0)
  | some kind =>
    match kind.fields.ofItems kind.fieldNames kind.empty items with
    | .error e => .error e
    | .ok (content, []) => .ok content
    | .ok (_, _ :: _) => .error (.contentTooLong items.length kind.fieldNames.length)

/-- Decodes the tag of content. -/
def contentTag : Json → Decoded Text
  | .text t => .ok t
  | v => mismatch v .contentTag

/-- The tag among an object's members, if there is one. No member may be a tag behind it. -/
def tagOfMembers : (tag : Option Text) → List (Text × Json) → Decoded (Option Text)
  | tag, [] => .ok tag
  | tag, (key, value) :: members =>
    if key = "type".toList then
      if tag.isSome then .error (.duplicateField key)
      else
        match contentTag value with
        | .error e => .error e
        | .ok t => tagOfMembers (some t) members
    else tagOfMembers tag members

/-- Decodes a part of a slide's content. -/
def slideContent : Json → Decoded SlideContent
  | .object members =>
    match tagOfMembers none members with
    | .error e => .error e
    | .ok none => .error .missingType
    | .ok (some tag) =>
      contentOfMembers tag (members.filter fun m => m.1 ≠ "type".toList)
  | .array [] => .error .missingType
  | .array (tag :: items) =>
    match contentTag tag with
    | .error e => .error e
    | .ok tag => contentOfItems tag items
  | v => mismatch v .slideContent

end BlockDocument.Decode
