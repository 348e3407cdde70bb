import BlockDocument.Source.Brace
import BlockDocument.Text.Lines

/-!
# Formatting source text

Formatting indents every line by the number of braces that are open before it, less the closing
braces that it begins with. It trims lines and shortens runs of blank lines, and drops blank lines
at both ends. Nothing inside a line is touched.
-/

namespace BlockDocument.Source

/-- How source text is laid out. -/
structure Layout where
  indent : Text := "  ".toList
  maxBlankLines : Nat := 1
  deriving DecidableEq, Repr

/-- How many of a line's braces are closing ones that it begins with, `column` being the number
of those already counted. -/
def leadingClosers : (column : Nat) → List (Nat × Brace) → Nat
  | column, (c, .closing) :: rest =>
    if c = column then leadingClosers (column + 1) rest + 1 else 0
  | _, _ => 0

/-- How many braces are open behind the given ones. A closing brace without an opening one does
not count. -/
def depthAfter (depth : Nat) (found : List (Nat × Brace)) : Nat :=
  found.foldl
    (fun depth b =>
      match b.2 with
      | .opening => depth + 1
      | .closing => depth - 1)
    depth

/-- Text that is being laid out: the lines so far, the open braces, and the blank lines since the
last line that was not blank. -/
structure FormatState where
  written : List Text := []
  depth : Nat := 0
  blanks : Nat := 0
  deriving DecidableEq, Repr

namespace FormatState

/-- Takes in a line. -/
def line (layout : Layout) (s : FormatState) (raw : Text) : FormatState :=
  let line := raw.trim
  if line.isEmpty then
    let blanks := s.blanks + 1
    if !s.written.isEmpty && blanks ≤ layout.maxBlankLines then
      { s with written := s.written ++ [[]], blanks }
    else { s with blanks }
  else
    let found := braces line
    let level := s.depth - leadingClosers 0 found
    { written := s.written ++ [Text.copies layout.indent level ++ line]
      depth := depthAfter s.depth found
      blanks := 0 }

end FormatState

/-- Lines without the empty ones at the end. -/
def dropEmptyEnd (lines : List Text) : List Text :=
  (lines.reverse.dropWhile List.isEmpty).reverse

/-- Lays out source text. -/
def format (layout : Layout) (source : Text) : Text :=
  let lines := dropEmptyEnd (source.lines.foldl (FormatState.line layout) {}).written
  if lines.isEmpty then [] else Text.join ['\n'] lines ++ ['\n']

end BlockDocument.Source
