import BlockDocument.Text.Basic

/-!
# Between the tokens of TOML

Blanks are spaces and tabs. A comment begins with a hash and ends with its line. A line ends at a
line feed, with or without a carriage return in front of it, or where the text ends.
-/

namespace BlockDocument.Toml

/-- Whether a character is a blank. -/
def isBlank (c : Char) : Bool := c == ' ' || c == '\t'

/-- What follows the blanks that a text begins with. -/
def skipBlanks (t : Text) : Text := t.dropWhile isBlank

/-- Whether a character may stand in a comment or a literal string: a tab is the only control
character that may. -/
def isPrintable (c : Char) : Bool := c == '\t' || (' '.toNat ≤ c.toNat && c.toNat ≠ 0x7F)

/-- What follows the comment that a text begins with, if it does. -/
def skipComment : Text → Text
  | '#' :: t => t.dropWhile isPrintable
  | t => t

/-- What follows the line end that a text begins with. -/
def afterNewline? : Text → Option Text
  | '\n' :: t => some t
  | '\r' :: '\n' :: t => some t
  | _ => none

/-- What follows a line whose rest may hold blanks and a comment only. -/
def afterLine? (t : Text) : Option Text :=
  match skipComment (skipBlanks t) with
  | [] => some []
  | rest => afterNewline? rest

/-- What follows any number of blanks, comments and line ends. A comment that `inComment` says has
begun is left at the end of its line. -/
def skipSpacingFrom : (inComment : Bool) → Text → Text
  | _, [] => []
  | _, '\n' :: t => skipSpacingFrom false t
  | _, '\r' :: '\n' :: t => skipSpacingFrom false t
  | true, c :: t => if isPrintable c then skipSpacingFrom true t else c :: t
  | false, c :: t =>
    if isBlank c then skipSpacingFrom false t
    else if c = '#' then skipSpacingFrom true t
    else c :: t

/-- What follows the blanks, comments and line ends that a text begins with. -/
def skipSpacing (t : Text) : Text := skipSpacingFrom false t

end BlockDocument.Toml
