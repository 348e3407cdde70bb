import BlockDocument.Text.Blank
import BlockDocument.Html.Inline

/-!
# Headings

A heading is a line of one to three `#`, blank characters, and the heading's text. The text may
be empty but holds no line feed.
-/

namespace BlockDocument.Html

/-- A heading's rank: one for the largest. -/
inductive HeadingLevel
  | one | two | three
  deriving DecidableEq, Repr

namespace HeadingLevel

/-- The rank that a number of `#` stands for. -/
def ofNat? : Nat → Option HeadingLevel
  | 1 => some one
  | 2 => some two
  | 3 => some three
  | _ => none

/-- The element of a heading. -/
def tag : HeadingLevel → Tag
  | one => .h1
  | two => .h2
  | three => .h3

end HeadingLevel

/-- What follows a marker and the blank characters behind it, when there is at least one of them
and the rest is on one line. -/
def afterMarker? (afterSign : Text) : Option Text :=
  let content := afterSign.dropWhile isBlank
  if afterSign.head?.any isBlank && !content.contains '\n' then some content else none

/-- Reads a heading line: its rank and its text. -/
def readHeading? (line : Text) : Option (HeadingLevel × Text) :=
  match HeadingLevel.ofNat? (line.takeWhile (· == '#')).length with
  | some level => (afterMarker? (line.dropWhile (· == '#'))).map fun content => (level, content)
  | none => none

/-- A heading element whose text may hold inline marks. -/
def headingMarkup (level : HeadingLevel) (content : Text) : List Markup :=
  element level.tag [] (inlineMarkup content)

end BlockDocument.Html
