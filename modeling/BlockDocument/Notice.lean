import BlockDocument.Text.Basic

/-!
# Notices

Rendering never fails. Where it leaves something out or stands something in for it, it says so
in a notice.
-/

namespace BlockDocument

/-- A decision that the reader of a rendered document may want to know about. -/
inductive Notice
  | unknownBlock (kind : Text)
  | skippedContent (slide : Text)
  | malformedCellKey (sheet key : Text)
  | sheetTruncated (sheet : Text) (rows columns shownRows shownColumns : Nat)
  deriving DecidableEq, Repr

namespace Notice

/-- Whether the notice is about content that the reader will not see. -/
def lossy : Notice → Bool
  | skippedContent _ | sheetTruncated .. => true
  | unknownBlock _ | malformedCellKey .. => false

/-- A notice in words. -/
def message : Notice → Text
  | unknownBlock kind =>
    "unknown block type '".toList ++ kind ++ "' rendered as placeholder".toList
  | skippedContent slide =>
    "skipped unsupported content block in slide '".toList ++ slide ++ "'".toList
  | malformedCellKey sheet key =>
    "ignored malformed cell key '".toList ++ key ++ "' in sheet '".toList ++ sheet ++ "'".toList
  | sheetTruncated sheet rows columns shownRows shownColumns =>
    "sheet '".toList ++ sheet ++ "' truncated from ".toList ++ Text.ofNat rows ++ 'x' ::
      Text.ofNat columns ++ " to ".toList ++ Text.ofNat shownRows ++ 'x' ::
      Text.ofNat shownColumns

end Notice

end BlockDocument
