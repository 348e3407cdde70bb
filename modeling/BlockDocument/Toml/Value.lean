import BlockDocument.Toml.Moment
import BlockDocument.Toml.Number
import BlockDocument.Toml.Quoted
import BlockDocument.Toml.Tree

/-!
# Values in TOML

A value is a quoted text, a word, a number, a moment, an array or a table in braces. An array may
stretch over lines and end in a comma, a table in braces may not. Values may be nested up to a
limit, and `depth` is what is left of it. The loops take `fuel`, a number of rounds that is not
smaller than the length of the text: every round reads at least one character.
-/

namespace BlockDocument.Toml

/-- Whether a character may stand in a key without quotes. -/
def isKeyChar (c : Char) : Bool := c.isAlphanum || c == '_' || c == '-'

/-- Reads one part of a key. -/
def readKeyPart (t : Text) : Option (Text × Text) :=
  match t with
  | '"' :: _ | '\'' :: _ => readLineQuoted t
  | _ =>
    let key := t.takeWhile isKeyChar
    if key.isEmpty then none else some (key, t.dropWhile isKeyChar)

/-- Reads the parts of a key with the dots between them, and the blanks around. -/
def readKey : (fuel : Nat) → Text → Option (List Text × Text)
  | 0, _ => none
  | fuel + 1, t =>
    match readKeyPart (skipBlanks t) with
    | none => none
    | some (part, t) =>
      match skipBlanks t with
      | '.' :: rest => (readKey fuel rest).map fun r => (part :: r.1, r.2)
      | rest => some ([part], rest)

/-- The last of some key's parts, and those in front of it. -/
def splitLast? (parts : List Text) : Option (List Text × Text) :=
  parts.getLast?.map fun key => (parts.dropLast, key)

/-- Reads a key and its value. -/
def readEntry (read : Text → Option (Setting × Text)) (fuel : Nat) (t : Text) :
    Option (Entry × Text) := do
  let (parts, t) ← readKey fuel t
  let (path, key) ← splitLast? parts
  let t ← Text.afterStart? ['='] t
  let (value, t) ← read (skipBlanks t)
  some (⟨path, key, value⟩, skipBlanks t)

/-- Reads the items of an array up to its closing bracket. -/
def readItems (read : Text → Option (Setting × Text)) :
    (fuel : Nat) → Text → Option (List Setting × Text)
  | 0, _ => none
  | fuel + 1, t =>
    match skipSpacing t with
    | ']' :: t => some ([], t)
    | t =>
      match read t with
      | none => none
      | some (item, t) =>
        match skipSpacing t with
        | ',' :: t => (readItems read fuel t).map fun r => (item :: r.1, r.2)
        | ']' :: t => some ([item], t)
        | _ => none

/-- Reads the entries of a table in braces, of which there is at least one, up to its closing
brace. -/
def readBraced (read : Text → Option (Setting × Text)) (keyFuel : Nat) :
    (fuel : Nat) → Text → Option (List Entry × Text)
  | 0, _ => none
  | fuel + 1, t =>
    match readEntry read keyFuel t with
    | none => none
    | some (e, ',' :: t) => (readBraced read keyFuel fuel t).map fun r => (e :: r.1, r.2)
    | some (e, '}' :: t) => some ([e], t)
    | some _ => none

/-- Whether a character may stand in a word, a number or a moment. -/
def isWordChar (c : Char) : Bool :=
  c.isAlphanum || c == '+' || c == '-' || c == '_' || c == '.' || c == ':'

/-- A word, number or moment at the beginning of a text, and what follows. A date and a time may
have a space between them. -/
def splitWord (t : Text) : Text × Text :=
  let word := t.takeWhile isWordChar
  match t.dropWhile isWordChar with
  | ' ' :: c :: rest =>
    if Text.isDigit c && (readDate word).any (·.2.isEmpty) then
      (word ++ ' ' :: (c :: rest).takeWhile isWordChar, (c :: rest).dropWhile isWordChar)
    else (word, ' ' :: c :: rest)
  | rest => (word, rest)

/-- The value of a word, number or moment. -/
def wordValue? (word : Text) : Option Setting :=
  if word = "true".toList then some (.bool true)
  else if word = "false".toList then some (.bool false)
  else ((readMoment? word).map .text).or (readNumber? word)

/-- How deeply values may be nested. -/
def nestingLimit : Nat := 79

/-- Reads any value, nested no deeper than `depth`. -/
def readValue (fuel : Nat) : (depth : Nat) → Text → Option (Setting × Text)
  | depth, t =>
    match t, depth with
    | '"' :: _, _ | '\'' :: _, _ => (readText t).map fun r => (.text r.1, r.2)
    | '[' :: t, depth + 1 =>
      (readItems (readValue fuel depth) fuel t).map fun r => (.array r.1, r.2)
    | '{' :: t, depth + 1 =>
      match skipBlanks t with
      | '}' :: t => some (.table [], t)
      | t =>
        match readBraced (readValue fuel depth) fuel fuel t with
        | none => none
        | some (entries, t) => (wholeTable? entries).map (·, t)
    | _, _ =>
      let (word, rest) := splitWord t
      (wordValue? word).map (·, rest)

end BlockDocument.Toml
