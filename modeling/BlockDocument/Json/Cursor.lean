import BlockDocument.Text.Basic

/-!
# Places in a text

A cursor is what is still to be read, with its place. Lines are counted from one, and columns are
the number of bytes read on the line.
-/

namespace BlockDocument.Json

/-- A place in a text. -/
structure Position where
  line : Nat := 1
  column : Nat := 0
  deriving DecidableEq, Repr

/-- The place behind a character. -/
def Position.over (p : Position) (c : Char) : Position :=
  if c = '\n' then ⟨p.line + 1, 0⟩ else ⟨p.line, p.column + c.utf8Size⟩

/-- What is still to be read. -/
structure Cursor where
  rest : Text
  position : Position := {}
  deriving DecidableEq, Repr

namespace Cursor

/-- The cursor behind the next character. -/
def advance (c : Cursor) : Cursor :=
  match c.rest with
  | [] => c
  | ch :: rest => ⟨rest, c.position.over ch⟩

/-- The cursor behind the next `count` characters. -/
def skip (c : Cursor) : (count : Nat) → Cursor
  | 0 => c
  | count + 1 => c.advance.skip count

/-- The place behind the next byte, which is where a reader that has looked at it stands. -/
def peeked (c : Cursor) : Position :=
  match c.rest with
  | [] => c.position
  | '\n' :: _ => ⟨c.position.line + 1, 0⟩
  | _ :: _ => ⟨c.position.line, c.position.column + 1⟩

/-- Whether a character may stand between tokens. -/
def isSpace (c : Char) : Bool := c == ' ' || c == '\n' || c == '\t' || c == '\r'

/-- The cursor behind the characters that may stand between tokens. -/
def skipSpace (c : Cursor) : Cursor := c.skip (c.rest.takeWhile isSpace).length

end Cursor

end BlockDocument.Json
