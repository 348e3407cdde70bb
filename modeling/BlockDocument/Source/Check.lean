import BlockDocument.Source.Brace
import BlockDocument.Text.Lines

/-!
# Checking source text

A check reports braces that are not matched and block keywords that are not known, in the order
of their places. Opening braces wait on a stack until a closing brace takes the last of them.
-/

namespace BlockDocument.Source

/-- How much a finding matters. -/
inductive Severity
  | error | warning
  deriving DecidableEq, Repr

/-- The name of a severity. -/
def Severity.name : Severity → Text
  | .error => "error".toList
  | .warning => "warning".toList

/-- What a check can find. -/
inductive Finding
  | unexpectedClosing
  | unclosedBlock
  | unknownBlock (keyword : Text)
  deriving DecidableEq, Repr

namespace Finding

/-- How much a finding matters. -/
def severity : Finding → Severity
  | unexpectedClosing | unclosedBlock => .error
  | unknownBlock _ => .warning

/-- A finding in words. -/
def message : Finding → Text
  | unexpectedClosing => "Unexpected closing brace".toList
  | unclosedBlock => "Unclosed block".toList
  | unknownBlock keyword => "Unknown block type '@".toList ++ keyword ++ "'".toList

end Finding

/-- A finding with its line and column, both counted from one. -/
structure Diagnostic where
  line : Nat
  column : Nat
  finding : Finding
  deriving DecidableEq, Repr

namespace Diagnostic

/-- A finding at a line and column counted from zero. -/
def atIndex (line column : Nat) (finding : Finding) : Diagnostic := ⟨line + 1, column + 1, finding⟩

/-- A diagnostic with its place and severity in front of its message. -/
def display (d : Diagnostic) : Text :=
  Text.ofNat d.line ++ ':' :: Text.ofNat d.column ++ ": ".toList ++ d.finding.severity.name
    ++ ": ".toList ++ d.finding.message

/-- Whether a diagnostic stands before another one or at the same place. -/
def notAfter (a b : Diagnostic) : Bool :=
  a.line < b.line || (a.line == b.line && a.column ≤ b.column)

end Diagnostic

/-- What a check looks for besides unmatched braces. -/
structure CheckOptions where
  warnUnknownBlocks : Bool := true
  deriving DecidableEq, Repr

/-- The block keywords that are known. -/
def knownKeywords : List Text :=
  ["meta", "doc", "slide", "sheet", "table", "chart", "diagram", "code", "include"].map
    String.toList

/-- Whether a keyword may begin with a character. -/
def startsKeyword (c : Char) : Bool := c.isAlpha || c == '_'

/-- Whether a keyword may go on with a character. -/
def continuesKeyword (c : Char) : Bool := c.isAlphanum || c == '_' || c == '-'

/-- The keyword behind the `@` that a line begins with, and the column of the `@`. -/
def keyword? (line : Text) : Option (Nat × Text) :=
  match line.dropWhile isBlank with
  | '@' :: c :: rest =>
    if startsKeyword c then
      some ((line.takeWhile isBlank).length, c :: rest.takeWhile continuesKeyword)
    else none
  | _ => none

/-- The warning about the keyword of a line, if the line has one that is not known. -/
def keywordWarnings (options : CheckOptions) (index : Nat) (line : Text) : List Diagnostic :=
  match keyword? line with
  | some (column, keyword) =>
    if options.warnUnknownBlocks && !knownKeywords.contains keyword then
      [.atIndex index column (.unknownBlock keyword)]
    else []
  | none => []

/-- The places of the braces that are open, the last one first, and what has been found. -/
structure CheckState where
  opened : List (Nat × Nat) := []
  found : List Diagnostic := []
  deriving DecidableEq, Repr

namespace CheckState

/-- Takes in a brace of the line of the given index. -/
def brace (s : CheckState) (index : Nat) : Nat × Brace → CheckState
  | (column, .opening) => { s with opened := (index, column) :: s.opened }
  | (column, .closing) =>
    match s.opened with
    | _ :: opened => { s with opened }
    | [] => { s with found := s.found ++ [.atIndex index column .unexpectedClosing] }

/-- Takes in a line. -/
def line (options : CheckOptions) (s : CheckState) (index : Nat) (line : Text) : CheckState :=
  (braces line).foldl (fun s b => s.brace index b)
    { s with found := s.found ++ keywordWarnings options index line }

/-- Takes in lines, the first of which has the given index. -/
def lines (options : CheckOptions) : CheckState → (index : Nat) → List Text → CheckState
  | s, _, [] => s
  | s, index, line :: rest => lines options (s.line options index line) (index + 1) rest

/-- What has been found at the end of the text, where every open brace is a finding. -/
def finish (s : CheckState) : List Diagnostic :=
  s.found ++ s.opened.reverse.map fun place => .atIndex place.1 place.2 .unclosedBlock

end CheckState

/-- Checks source text. -/
def check (options : CheckOptions) (source : Text) : List Diagnostic :=
  (CheckState.lines options {} 0 source.lines).finish.mergeSort Diagnostic.notAfter

/-- Whether any diagnostic is an error. -/
def hasErrors (diagnostics : List Diagnostic) : Bool :=
  diagnostics.any fun d => d.finding.severity = .error

end BlockDocument.Source
