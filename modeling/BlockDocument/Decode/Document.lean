import BlockDocument.Decode.Block
import BlockDocument.Json.Skip

/-!
# Reading documents

A document is an array of blocks, or an object whose `blocks` are one; the object's other members
are passed over, and of several `blocks` the last counts. Each block is read as a value and then
decoded, so a block that does not fit stops the reading before what follows it is looked at.

Runs and slide content are also read on their own, as arrays.
-/

namespace BlockDocument.Decode

open BlockDocument (Json)
open BlockDocument.Json

/-- Reads a value and decodes it. -/
def readDecoded {α : Type} (decode : Json → Decoded α) (fuel depth : Nat) (c : Cursor) :
    Outcome Mismatch α :=
  match readValue fuel depth c with
  | .error e => .error e
  | .ok (v, c) =>
    match decode v with
    | .error e => .error (.pending e c)
    | .ok a => .ok (a, c)

/-- Reads an array of values that are decoded one by one. -/
def readDecodedArray {α : Type} (decode : Json → Decoded α) (fuel depth : Nat) (c : Cursor) :
    Outcome Mismatch (List α) :=
  readArray (fun found => .invalidType found .sequence)
    (fun depth _ => readDecoded decode fuel depth) fuel depth c

/-! ### Documents -/

/-- Reads a member of the root object. Only `blocks` are kept. -/
def readRootMember (fuel depth : Nat) (key : Text) :
    Cursor → Outcome Mismatch (Option (List Block)) :=
  if key = "blocks".toList then
    readAfterColon fun c => Outcome.map some (readDecodedArray block fuel depth c)
  else readAfterColon fun c => Outcome.map (fun _ => none) (skipValue c)

/-- The document that the members of a root object make. -/
def documentOfMembers (members : List (Text × Option (List Block))) : Document :=
  ⟨(members.reverse.findSome? (·.2)).getD []⟩

/-- Reads a document. -/
def readDocument (fuel : Nat) (c : Cursor) : Outcome Mismatch Document :=
  let c := c.skipSpace
  let depth := nestingLimit - 1
  match c.rest with
  | '[' :: _ =>
    Outcome.map .mk (readItems (fun _ => readDecoded block fuel depth) fuel 0 c.advance)
  | '{' :: _ =>
    Outcome.map documentOfMembers
      (readMembers (fun _ key => readRootMember fuel depth key) fuel [] c.advance)
  | _ => refuse (fun found => .invalidType found .blocks) c

/-! ### Scalars, runs and slide content on their own -/

/-- Reads a scalar. -/
def readScalar (fuel : Nat) (c : Cursor) : Outcome Mismatch Scalar :=
  Outcome.map Scalar.ofJson (readValue fuel nestingLimit c)

/-- Reads an array of runs. -/
def readRuns (fuel : Nat) (c : Cursor) : Outcome Mismatch (List Run) :=
  readDecodedArray run fuel nestingLimit c

/-- A member of slide content: its tag, or a value. -/
inductive ContentMember
  | tag (value : Text)
  | field (value : Json)

/-- Reads the tag of slide content. -/
def readContentTag (c : Cursor) : Outcome Mismatch ContentMember :=
  Outcome.map .tag (readText (fun found => .invalidType found .contentTag) c)

/-- Reads a member of slide content. A second tag is refused as soon as its key is read. -/
def readContentMember (fuel depth : Nat) (seen : List Text) (key : Text) (c : Cursor) :
    Outcome Mismatch ContentMember :=
  if key = "type".toList then
    if seen.contains key then .error (.pending (.duplicateField key) c)
    else readAfterColon readContentTag c
  else Outcome.map .field (readAfterColon (readValue fuel depth) c)

/-- Reads an item of slide content that is written as an array. The first is the tag. -/
def readContentItem (fuel depth index : Nat) (c : Cursor) : Outcome Mismatch ContentMember :=
  if index = 0 then readContentTag c else Outcome.map .field (readValue fuel depth c)

/-- The tag of slide content. -/
def ContentMember.tag? : ContentMember → Option Text
  | .tag t => some t
  | .field _ => none

/-- The value of a member of slide content that is not its tag. -/
def ContentMember.field? : ContentMember → Option Json
  | .tag _ => none
  | .field v => some v

/-- Decodes slide content once its tag is known. Without a tag it is refused where it ends. -/
def finishContent (decode : Text → Decoded SlideContent) (tag : Option Text) (c : Cursor) :
    Outcome Mismatch SlideContent :=
  match tag with
  | none => .error (.refused .missingType c.position)
  | some tag =>
    match decode tag with
    | .error e => .error (.pending e c)
    | .ok content => .ok (content, c)

/-- Reads a part of a slide's content. -/
def readContent (fuel depth : Nat) (c : Cursor) : Outcome Mismatch SlideContent :=
  let c := c.skipSpace
  match c.rest, depth with
  | '[' :: _, 0 | '{' :: _, 0 => stopPast c .nestingLimit
  | '[' :: _, depth + 1 =>
    match readItems (readContentItem fuel depth) fuel 0 c.advance with
    | .error e => .error e
    | .ok (items, c) =>
      finishContent (fun tag => contentOfItems tag (items.filterMap ContentMember.field?))
        (items.findSome? ContentMember.tag?) c
  | '{' :: _, depth + 1 =>
    match readMembers (readContentMember fuel depth) fuel [] c.advance with
    | .error e => .error e
    | .ok (members, c) =>
      finishContent
        (fun tag =>
          contentOfMembers tag (members.filterMap fun m => m.2.field?.map fun v => (m.1, v)))
        (members.findSome? fun m => m.2.tag?) c
  | _, _ => refuse (fun found => .invalidType found .slideContent) c

/-- Reads an array of slide content. -/
def readContents (fuel : Nat) (c : Cursor) : Outcome Mismatch (List SlideContent) :=
  readArray (fun found => .invalidType found .sequence)
    (fun depth _ => readContent fuel depth) fuel nestingLimit c

/-- Reads a whole text, or says why it cannot be read and where. -/
def parse {α : Type} (read : (fuel : Nat) → Cursor → Outcome Mismatch α) (source : Text) :
    Except Text α :=
  match readAll read source with
  | .error stop => .error (stop.message Mismatch.message)
  | .ok a => .ok a

end BlockDocument.Decode
