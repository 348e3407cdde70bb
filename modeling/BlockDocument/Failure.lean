import BlockDocument.Decode.Mismatch
import BlockDocument.Files.Tree
import BlockDocument.LineReference

/-!
# Failures to read a document

A document cannot be read when its text is not one, or when a file it is read from or includes is
in the way. A failure has a message, and refers to the line that its message refers to first.
-/

namespace BlockDocument

/-- How deeply files may include each other. -/
def maxIncludeDepth : Nat := 8

/-- Why a document could not be read. -/
inductive Failure
  /-- The text is not a document. -/
  | malformed (stop : Json.Stop Decode.Mismatch)
  /-- The document's file cannot be read. -/
  | unreadable (path : Text) (reason : FileError)
  /-- An included file cannot be read. -/
  | missingInclude (path : Text) (reason : FileError)
  /-- An included file is not a document. -/
  | malformedInclude (path : Text) (stop : Json.Stop Decode.Mismatch)
  /-- A file includes itself, perhaps by way of other files. -/
  | includeCycle (path : Text)
  /-- A file would be included more deeply than is allowed. -/
  | includeTooDeep (path : Text)

namespace Failure

/-- Why a text is not a document, in words. -/
def stopMessage (stop : Json.Stop Decode.Mismatch) : Text := stop.message Decode.Mismatch.message

/-- A failure in words. -/
def message : Failure → Text
  | malformed stop => stopMessage stop
  | unreadable path reason =>
    "failed to read '".toList ++ path ++ "': ".toList ++ reason.message
  | missingInclude path reason =>
    "cannot include '".toList ++ path ++ "': ".toList ++ reason.message
  | malformedInclude path stop =>
    "in included file '".toList ++ path ++ "': ".toList ++ stopMessage stop
  | includeCycle path => "include cycle detected at '".toList ++ path ++ "'".toList
  | includeTooDeep path =>
    "includes nested deeper than ".toList ++ Text.ofNat maxIncludeDepth ++ " levels at '".toList
      ++ path ++ "'".toList

/-- The line that a failure refers to. -/
def line? (f : Failure) : Option Nat := lineReference? f.message

end Failure

end BlockDocument
