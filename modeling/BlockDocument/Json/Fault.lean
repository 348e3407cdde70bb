import BlockDocument.Json.Cursor
import BlockDocument.Json.Value
import BlockDocument.Decimal.Notation
import BlockDocument.Text.Quoted

/-!
# What can go wrong in JSON text

A fault is a place where the text is not JSON. Reading text as a value of some shape can also
fail on text that is JSON: the reader then refuses what it found. Both carry the place at which
reading stopped.

A refusal may come up before its place is known: while it is `pending` it holds the cursor, and
the sequence or object around it sets the place when it has looked for its own end.
-/

namespace BlockDocument.Json

/-- Why a text is not JSON. -/
inductive Fault
  | eofValue | eofList | eofObject | eofString
  | expectedColon | expectedListEnd | expectedObjectEnd | expectedIdent | expectedValue
  | invalidEscape | invalidNumber | numberOutOfRange | controlCharacter | keyNotText
  | loneSurrogate | hexEscapeEnd | trailingComma | trailingCharacters | nestingLimit
  deriving DecidableEq, Repr

/-- A fault in words. -/
def Fault.message : Fault → Text
  | eofValue => "EOF while parsing a value".toList
  | eofList => "EOF while parsing a list".toList
  | eofObject => "EOF while parsing an object".toList
  | eofString => "EOF while parsing a string".toList
  | expectedColon => "expected `:`".toList
  | expectedListEnd => "expected `,` or `]`".toList
  | expectedObjectEnd => "expected `,` or `\x7d`".toList
  | expectedIdent => "expected ident".toList
  | expectedValue => "expected value".toList
  | invalidEscape => "invalid escape".toList
  | invalidNumber => "invalid number".toList
  | numberOutOfRange => "number out of range".toList
  | controlCharacter =>
    "control character (\\u0000-\\u001F) found while parsing a string".toList
  | keyNotText => "key must be a string".toList
  | loneSurrogate => "lone leading surrogate in hex escape".toList
  | hexEscapeEnd => "unexpected end of hex escape".toList
  | trailingComma => "trailing comma".toList
  | trailingCharacters => "trailing characters".toList
  | nestingLimit => "recursion limit exceeded".toList

/-- What a reader found where it expected something else. -/
inductive Found
  | null
  | bool (value : Bool)
  | integer (value : Int)
  | real (value : Binary64)
  | text (value : Text)
  | sequence
  | map
  deriving DecidableEq, Repr

namespace Found

/-- What a value is found as. -/
def ofJson : Json → Found
  | .null => null
  | .bool b => bool b
  | .integer n => integer n
  | .real x => real x
  | .text t => text t
  | .array _ => sequence
  | .object _ => map

/-- What was found in words. -/
def message : Found → Text
  | null => "null".toList
  | bool true => "boolean `true`".toList
  | bool false => "boolean `false`".toList
  | integer n => "integer `".toList ++ Text.ofInt n ++ "`".toList
  | real x => "floating point `".toList ++ x.scientific ++ "`".toList
  | text t => "string ".toList ++ t.quote
  | sequence => "sequence".toList
  | map => "map".toList

end Found

/-- Why reading stopped. Refusals are of type `ε`. -/
inductive Stop (ε : Type)
  | fault (cause : Fault) (place : Position)
  | refused (cause : ε) (place : Position)
  | pending (cause : ε) (cursor : Cursor)
  deriving Repr

namespace Stop

variable {ε : Type}

/-- The place at which reading stopped. -/
def place : Stop ε → Position
  | fault _ place | refused _ place => place
  | pending _ cursor => cursor.position

/-- Why reading stopped and where, in words. -/
def message (describe : ε → Text) (s : Stop ε) : Text :=
  let cause :=
    match s with
    | fault f _ => f.message
    | refused e _ | pending e _ => describe e
  cause ++ " at line ".toList ++ Text.ofNat s.place.line ++ " column ".toList
    ++ Text.ofNat s.place.column

/-- Sets the place of a pending refusal. -/
def settle (place : Cursor → Position) : Stop ε → Stop ε
  | pending e c => refused e (place c)
  | s => s

end Stop

/-- The result of reading: a value and the cursor behind it. -/
abbrev Outcome (ε α : Type) := Except (Stop ε) (α × Cursor)

end BlockDocument.Json
