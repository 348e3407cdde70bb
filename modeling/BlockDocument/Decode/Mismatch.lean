import BlockDocument.Json.Fault

/-!
# Mismatches

A JSON value need not be what a document expects in its place. A mismatch says what was expected
and what was there instead.
-/

namespace BlockDocument.Decode

/-- What a document may expect. -/
inductive Expected
  | text | bool | sequence | map | tableRow | slideContent | contentTag | blocks
  deriving DecidableEq, Repr

/-- What was expected in words. -/
def Expected.message : Expected → Text
  | text => "a string".toList
  | bool => "a boolean".toList
  | sequence => "a sequence".toList
  | map => "a map".toList
  | tableRow => "struct TableRow".toList
  | slideContent => "internally tagged enum ContentBlock".toList
  | contentTag => "variant identifier".toList
  | blocks => "an array of blocks or an object with a `blocks` array".toList

/-- What may be written in more than one form. -/
inductive Flexible
  | run | sequence | cell
  deriving DecidableEq, Repr

/-- What is written in more than one form, as messages name it. -/
def Flexible.name : Flexible → Text
  | run => "RunRepr".toList
  | sequence => "SequenceRepr".toList
  | cell => "CellRepr".toList

/-- Why a value does not fit. -/
inductive Mismatch
  | invalidType (found : Json.Found) (expected : Expected)
  /-- A table row written as an array with items behind its cells. -/
  | rowTooLong (size : Nat)
  /-- Slide content written as an array with items behind its fields. -/
  | contentTooLong (size fields : Nat)
  | missingType
  | duplicateField (name : Text)
  | noForm (of : Flexible)
  | kindNotText
  | invalidBlock (kind : Text) (reason : Mismatch)
  deriving DecidableEq, Repr

/-- The start of a message about a sequence of the wrong length. -/
def invalidLength (size : Nat) : Text :=
  "invalid length ".toList ++ Text.ofNat size ++ ", expected ".toList

/-- A mismatch in words. -/
def Mismatch.message : Mismatch → Text
  | invalidType found expected =>
    "invalid type: ".toList ++ found.message ++ ", expected ".toList ++ expected.message
  | rowTooLong size => invalidLength size ++ "fewer elements in array".toList
  | contentTooLong size fields =>
    invalidLength size ++ Text.ofNat fields
      ++ (if fields = 1 then " element in sequence" else " elements in sequence").toList
  | missingType => "missing field `type`".toList
  | duplicateField name => "duplicate field `".toList ++ name ++ "`".toList
  | noForm flexible =>
    "data did not match any variant of untagged enum ".toList ++ flexible.name
  | kindNotText => "block `type` must be a string".toList
  | invalidBlock kind reason =>
    "invalid `".toList ++ kind ++ "` block: ".toList ++ reason.message

/-- The result of decoding a value. -/
abbrev Decoded (α : Type) := Except Mismatch α

end BlockDocument.Decode
