import BlockDocument.Json.Reader

/-!
# Passing over values

A value that nobody asks for is passed over without being kept. It may be nested as deeply as it
likes, and of its numbers and escapes only the form is looked at. The arrays and objects that are
open stand on a stack.
-/

namespace BlockDocument.Json

variable {ε : Type}

/-- Passes over an exponent whose `e` has been read. -/
def skipExponent (c : Cursor) : Outcome ε Unit :=
  let c := if c.rest.head? = some '-' || c.rest.head? = some '+' then c.advance else c
  let digits := digitsAt c
  if digits.isEmpty then stopPast c .invalidNumber else .ok ((), c.skip digits.length)

/-- Passes over an exponent, if there is one. -/
def skipRealEnd (c : Cursor) : Outcome ε Unit :=
  match c.rest with
  | 'e' :: _ | 'E' :: _ => skipExponent c.advance
  | _ => .ok ((), c)

/-- Passes over a number, the minus sign of which has been read if it has one. -/
def skipNumber (c : Cursor) : Outcome ε Unit :=
  let digits := digitsAt c
  if digits.isEmpty then stopPast c .invalidNumber
  else if digits.head? = some '0' && digits.length > 1 then stopPast c.advance .invalidNumber
  else
    let c := c.skip digits.length
    match c.rest with
    | '.' :: _ =>
      let c := c.advance
      let digits := digitsAt c
      if digits.isEmpty then stopPast c .invalidNumber else skipRealEnd (c.skip digits.length)
    | _ => skipRealEnd c

/-- What the next character of a string that is passed over is part of. -/
inductive SkipState
  | text
  | escape
  | hex (size : Nat) (valid : Bool)
  deriving DecidableEq, Repr

/-- Passes over the rest of a string up to its closing quote. -/
def skipStringFrom : SkipState → Position → Text → Outcome ε Unit
  | _, p, [] => .error (.fault .eofString p)
  | .text, p, c :: rest =>
    if c = '"' then .ok ((), ⟨rest, p.over c⟩)
    else if c = '\\' then skipStringFrom .escape (p.over c) rest
    else if c.toNat < 0x20 then .error (.fault .controlCharacter p)
    else skipStringFrom .text (p.over c) rest
  | .escape, p, c :: rest =>
    if c = 'u' then skipStringFrom (.hex 0 true) (p.over c) rest
    else if (escaped? c).isSome then skipStringFrom .text (p.over c) rest
    else .error (.fault .invalidEscape (stringStopPlace .escape p c))
  | .hex size valid, p, c :: rest =>
    let valid := valid && (Text.hexValue? c).isSome
    if size + c.utf8Size < 4 then skipStringFrom (.hex (size + c.utf8Size) valid) (p.over c) rest
    else if valid then skipStringFrom .text (p.over c) rest
    else .error (.fault .invalidEscape (stringStopPlace (.hex size none none) p c))

/-- Passes over a string whose opening quote has been read. -/
def skipString (c : Cursor) : Outcome ε Unit := skipStringFrom .text c.position c.rest

/-- Passes over a value other than an array or an object. -/
def skipScalar (c : Cursor) : Outcome ε Unit :=
  match c.rest with
  | [] => stopPast c .eofValue
  | 'n' :: _ => readWord "ull".toList c.advance
  | 't' :: _ => readWord "rue".toList c.advance
  | 'f' :: _ => readWord "alse".toList c.advance
  | '"' :: _ => skipString c.advance
  | '-' :: _ => skipNumber c.advance
  | ch :: _ => if Text.isDigit ch then skipNumber c else stopPast c .expectedValue

/-- An array or an object that is open. -/
inductive Frame
  | array | object
  deriving DecidableEq, Repr

/-- The fault of a text that ends inside of an array or object. -/
def Frame.eof : Frame → Fault
  | array => .eofList
  | object => .eofObject

/-- The fault of something else behind an item or member than a comma or the end. -/
def Frame.expectedEnd : Frame → Fault
  | array => .expectedListEnd
  | object => .expectedObjectEnd

/-- The character that closes an array or object. -/
def Frame.closer : Frame → Char
  | array => ']'
  | object => '}'

/-- What is passed over next. -/
inductive SkipGoal
  /-- A value. -/
  | value
  /-- The first item or member, or the end. -/
  | first
  /-- What follows a value. -/
  | next
  deriving DecidableEq, Repr

/-- Passes over the key of a member and its colon. In an array there is nothing to pass over. -/
def skipKey (frame : Frame) (c : Cursor) : Except (Stop ε) Cursor :=
  match frame with
  | .array => .ok c
  | .object =>
    let c := c.skipSpace
    match c.rest with
    | [] => .error (.fault .eofObject c.peeked)
    | '"' :: _ =>
      match skipString (ε := ε) c.advance with
      | .error e => .error e
      | .ok (_, c) => readColon c
    | _ => .error (.fault .keyNotText c.peeked)

/-- Passes over what the goal names, and then over all that is open. -/
def skipFrom : (fuel : Nat) → SkipGoal → List Frame → Cursor → Outcome ε Unit
  | 0, _, _, c => stopAt c .eofValue
  | fuel + 1, .value, stack, c =>
    let c := c.skipSpace
    match c.rest with
    | '[' :: _ => skipFrom fuel .first (.array :: stack) c.advance
    | '{' :: _ => skipFrom fuel .first (.object :: stack) c.advance
    | _ =>
      match skipScalar (ε := ε) c with
      | .error e => .error e
      | .ok (_, c) => skipFrom fuel .next stack c
  | _ + 1, .first, [], c => .ok ((), c)
  | fuel + 1, .first, frame :: stack, c =>
    let c := c.skipSpace
    match c.rest with
    | [] => stopPast c frame.eof
    | ch :: _ =>
      if ch = frame.closer then skipFrom fuel .next stack c.advance
      else
        match skipKey frame c with
        | .error e => .error e
        | .ok c => skipFrom fuel .value (frame :: stack) c
  | _ + 1, .next, [], c => .ok ((), c)
  | fuel + 1, .next, frame :: stack, c =>
    let c := c.skipSpace
    match c.rest with
    | [] => stopPast c frame.eof
    | ch :: _ =>
      if ch = ',' then
        match skipKey frame c.advance with
        | .error e => .error e
        | .ok c => skipFrom fuel .value (frame :: stack) c
      else if ch = frame.closer then skipFrom fuel .next stack c.advance
      else stopPast c frame.expectedEnd

/-- Passes over a value. -/
def skipValue (c : Cursor) : Outcome ε Unit :=
  skipFrom (2 * fuelFor c.rest) .value [] c

end BlockDocument.Json
