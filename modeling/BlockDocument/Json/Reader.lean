import BlockDocument.Json.Literal

/-!
# Reading JSON text

Arrays and objects are read by `readItems` and `readMembers`, which take the reader of an item or
of a member's value. So whoever reads an array of some shape decides itself what its items are,
while the commas and brackets are looked after here. `readValue` reads any value; values may be
nested up to a limit, and `depth` is what is left of it.

The loops take `fuel`, a number of rounds that is not smaller than the length of the text: every
round reads at least one character.
-/

namespace BlockDocument.Json

variable {ε α : Type}

/-- How deeply arrays and objects may be nested. -/
def nestingLimit : Nat := 127

/-- As many rounds as a text can take. -/
def fuelFor (t : Text) : Nat := t.length + 1

/-- The place behind the end of an array, or where reading stops that looks for it. -/
def arrayEndPlace (c : Cursor) : Position :=
  let c := c.skipSpace
  match c.rest with
  | ']' :: _ => c.advance.position
  | ',' :: _ => c.advance.skipSpace.position
  | _ => c.position

/-- The place behind the end of an object, or where reading stops that looks for it. -/
def objectEndPlace (c : Cursor) : Position :=
  let c := c.skipSpace
  match c.rest with
  | '}' :: _ => c.advance.position
  | _ => c.position

/-- Reads the items of an array whose bracket has been read, up to the closing one. `read` is told
the index of the item. -/
def readItems (read : Nat → Cursor → Outcome ε α) :
    (fuel : Nat) → (index : Nat) → Cursor → Outcome ε (List α)
  | 0, _, c => stopAt c .eofList
  | fuel + 1, index, c =>
    let c := c.skipSpace
    let item (c : Cursor) : Outcome ε (List α) :=
      match read index c with
      | .error e => .error (e.settle arrayEndPlace)
      | .ok (a, c) =>
        match readItems read fuel (index + 1) c with
        | .error e => .error e
        | .ok (as, c) => .ok (a :: as, c)
    match c.rest with
    | [] => stopPast c .eofList
    | ']' :: _ => .ok ([], c.advance)
    | ch :: _ =>
      if index = 0 then item c
      else if ch = ',' then
        let c := c.advance.skipSpace
        match c.rest with
        | [] => stopPast c .eofValue
        | ']' :: _ => stopPast c .trailingComma
        | _ => item c
      else stopPast c .expectedListEnd

/-- Reads the members of an object whose brace has been read, up to the closing one. `read` is
told the keys before, last one first, and the key of the member, and starts behind that key. -/
def readMembers (read : List Text → Text → Cursor → Outcome ε α) :
    (fuel : Nat) → (seen : List Text) → Cursor → Outcome ε (List (Text × α))
  | 0, _, c => stopAt c .eofObject
  | fuel + 1, seen, c =>
    let c := c.skipSpace
    let member (c : Cursor) : Outcome ε (List (Text × α)) :=
      match readString c with
      | .error e => .error e
      | .ok (key, c) =>
        match read seen key c with
        | .error e => .error (e.settle objectEndPlace)
        | .ok (a, c) =>
          match readMembers read fuel (key :: seen) c with
          | .error e => .error e
          | .ok (as, c) => .ok ((key, a) :: as, c)
    match c.rest with
    | [] => stopPast c .eofObject
    | '}' :: _ => .ok ([], c.advance)
    | ch :: _ =>
      if seen.isEmpty then
        if ch = '"' then member c.advance else stopPast c .keyNotText
      else if ch = ',' then
        let c := c.advance.skipSpace
        match c.rest with
        | [] => stopPast c .eofValue
        | '"' :: _ => member c.advance
        | '}' :: _ => stopPast c .trailingComma
        | _ => stopPast c .keyNotText
      else stopPast c .expectedObjectEnd

/-- Reads the colon behind a key. -/
def readColon (c : Cursor) : Except (Stop ε) Cursor :=
  let c := c.skipSpace
  match c.rest with
  | [] => .error (.fault .eofObject c.peeked)
  | ':' :: _ => .ok c.advance
  | _ => .error (.fault .expectedColon c.peeked)

/-- Reads a member's colon and then its value. -/
def readAfterColon (read : Cursor → Outcome ε α) (c : Cursor) : Outcome ε α :=
  match readColon c with
  | .error e => .error e
  | .ok c => read c

/-- The same value in another form. -/
def Outcome.map {β : Type} (f : α → β) : Outcome ε α → Outcome ε β
  | .error e => .error e
  | .ok (a, c) => .ok (f a, c)

/-- Reads a value other than an array or an object, which the cursor stands in front of. -/
def readScalar (c : Cursor) : Outcome ε Json :=
  match c.rest with
  | [] => stopPast c .eofValue
  | 'n' :: _ => Outcome.map (fun _ => .null) (readWord "ull".toList c.advance)
  | 't' :: _ => Outcome.map (fun _ => .bool true) (readWord "rue".toList c.advance)
  | 'f' :: _ => Outcome.map (fun _ => .bool false) (readWord "alse".toList c.advance)
  | '"' :: _ => Outcome.map .text (readString c.advance)
  | '-' :: _ => readNumber true c.advance
  | ch :: _ => if Text.isDigit ch then readNumber false c else stopPast c .expectedValue

/-- Reads any value, nested no deeper than `depth`. -/
def readValue (fuel : Nat) : (depth : Nat) → Cursor → Outcome ε Json
  | depth, c =>
    let c := c.skipSpace
    match c.rest, depth with
    | '[' :: _, 0 | '{' :: _, 0 => stopPast c .nestingLimit
    | '[' :: _, depth + 1 =>
      Outcome.map .array (readItems (fun _ => readValue fuel depth) fuel 0 c.advance)
    | '{' :: _, depth + 1 =>
      Outcome.map .object
        (readMembers (fun _ _ => readAfterColon (readValue fuel depth)) fuel [] c.advance)
    | _, _ => readScalar c

/-- Refuses a value of the wrong kind, an array or object without reading it. -/
def refuse (mismatch : Found → ε) (c : Cursor) : Outcome ε α :=
  match c.rest with
  | '[' :: _ => .error (.refused (mismatch .sequence) c.position)
  | '{' :: _ => .error (.refused (mismatch .map) c.position)
  | _ =>
    match readScalar (ε := ε) c with
    | .error e => .error e
    | .ok (v, c) => .error (.refused (mismatch (.ofJson v)) c.position)

/-- Reads an array whose items `read` reads, nested no deeper than `depth`. `read` is told the
depth that is left and the index of the item. -/
def readArray (mismatch : Found → ε) (read : (depth : Nat) → (index : Nat) → Cursor → Outcome ε α)
    (fuel depth : Nat) (c : Cursor) : Outcome ε (List α) :=
  let c := c.skipSpace
  match c.rest, depth with
  | '[' :: _, 0 => stopPast c .nestingLimit
  | '[' :: _, depth + 1 => readItems (read depth) fuel 0 c.advance
  | _, _ => refuse mismatch c

/-- Reads a string. -/
def readText (mismatch : Found → ε) (c : Cursor) : Outcome ε Text :=
  let c := c.skipSpace
  match c.rest with
  | '"' :: _ => readString c.advance
  | _ => refuse mismatch c

/-- Reads a text from its beginning to its end. -/
def readAll (read : (fuel : Nat) → Cursor → Outcome ε α) (t : Text) : Except (Stop ε) α :=
  match read (fuelFor t) ⟨t, {}⟩ with
  | .error e => .error e
  | .ok (a, c) =>
    let c := c.skipSpace
    if c.rest.isEmpty then .ok a else .error (.fault .trailingCharacters c.peeked)

end BlockDocument.Json
