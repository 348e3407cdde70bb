import BlockDocument.Text.Blank

/-!
# Braces

Source text is structured by braces. Those inside strings do not count, and neither do those on a
comment line. A string begins and ends with a double quote, a backslash in it takes the next
character with it, and no string runs past the end of its line.
-/

namespace BlockDocument.Source

/-- A structural brace. -/
inductive Brace
  | opening | closing
  deriving DecidableEq, Repr

/-- The brace that a character is, if it is one. -/
def Brace.ofChar? : Char → Option Brace
  | '{' => some .opening
  | '}' => some .closing
  | _ => none

/-- Whether a line is a comment. -/
def isComment (line : Text) : Bool := (Text.afterStart? "//".toList line.trimStart).isSome

/-- What the next character of a line is part of. -/
inductive ScanState
  | code | string | escaped
  deriving DecidableEq, Repr

/-- What the character behind `c` is part of. -/
def ScanState.next : ScanState → Char → ScanState
  | .code, c => if c = '"' then .string else .code
  | .string, c => if c = '\\' then .escaped else if c = '"' then .code else .string
  | .escaped, _ => .string

/-- The braces among the characters of a line, the first of which stands in the given column. -/
def scanBraces : ScanState → (column : Nat) → Text → List (Nat × Brace)
  | _, _, [] => []
  | state, column, c :: rest =>
    let later := scanBraces (state.next c) (column + 1) rest
    match state, Brace.ofChar? c with
    | .code, some brace => (column, brace) :: later
    | _, _ => later

/-- The structural braces of a line, with their columns counted from zero. -/
def braces (line : Text) : List (Nat × Brace) :=
  if isComment line then [] else scanBraces .code 0 line

end BlockDocument.Source
