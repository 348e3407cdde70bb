import BlockDocument.Json.Fault
import BlockDocument.Text.Hexadecimal

/-!
# Literals

Strings, numbers and the three words. A string is read one character at a time, and `StringState`
says what the next character is part of. A number is read as an integer when it is one of 64 bits,
and otherwise as a floating-point number: its significant digits, as far as they fit into 64 bits,
times or over a power of ten.
-/

namespace BlockDocument.Json

variable {ε : Type}

/-- Stops at the cursor. -/
def stopAt {α : Type} (c : Cursor) (f : Fault) : Outcome ε α := .error (.fault f c.position)

/-- Stops behind the byte that was looked at. -/
def stopPast {α : Type} (c : Cursor) (f : Fault) : Outcome ε α := .error (.fault f c.peeked)

/-- Reads the rest of a word. -/
def readWord : (word : Text) → Cursor → Outcome ε Unit
  | [], c => .ok ((), c)
  | w :: word, c =>
    match c.rest with
    | [] => stopAt c .eofValue
    | d :: _ => if d = w then readWord word c.advance else stopPast c .expectedIdent

/-! ### Strings -/

/-- The character that a one-letter escape stands for. -/
def escaped? : Char → Option Char
  | '"' => some '"'
  | '\\' => some '\\'
  | '/' => some '/'
  | 'b' => some '\x08'
  | 'f' => some '\x0c'
  | 'n' => some '\n'
  | 'r' => some '\r'
  | 't' => some '\t'
  | _ => none

/-- Whether a unit is the first half of a surrogate pair. -/
def isHighSurrogate (n : Nat) : Bool := 0xD800 ≤ n && n ≤ 0xDBFF

/-- Whether a unit is the second half of a surrogate pair. -/
def isLowSurrogate (n : Nat) : Bool := 0xDC00 ≤ n && n ≤ 0xDFFF

/-- What the next character of a string is part of. -/
inductive StringState
  /-- Text, or the closing quote. -/
  | text
  /-- An escape whose backslash has been read. -/
  | escape
  /-- A four-digit escape. `size` of its bytes have been read, `value` is what they stand for
  unless one of them is no digit, and `high` is the first half of the pair it belongs to. -/
  | hex (size : Nat) (value : Option Nat) (high : Option Nat)
  /-- The backslash of the second half of a pair. -/
  | pair (high : Nat)
  /-- The letter behind that backslash. -/
  | pairEscape (high : Nat)
  deriving DecidableEq, Repr

/-- What a character of a string leads to. -/
inductive StringStep
  | closed
  | next (state : StringState)
  | emit (c : Char)
  | stop (f : Fault)
  deriving DecidableEq, Repr

/-- What a unit of 16 bits leads to, given the first half of a pair if one was read. -/
def hexStep (high : Option Nat) (unit : Nat) : StringStep :=
  match high with
  | none =>
    if isLowSurrogate unit then .stop .loneSurrogate
    else if isHighSurrogate unit then .next (.pair unit)
    else .emit (Char.ofNat unit)
  | some h =>
    if isLowSurrogate unit then
      .emit (Char.ofNat (0x10000 + (h - 0xD800) * 0x400 + (unit - 0xDC00)))
    else .stop .loneSurrogate

/-- Reads one character of a string. -/
def stringStep : StringState → Char → StringStep
  | .text, c =>
    if c = '"' then .closed
    else if c = '\\' then .next .escape
    else if c.toNat < 0x20 then .stop .controlCharacter
    else .emit c
  | .escape, c =>
    if c = 'u' then .next (.hex 0 (some 0) none)
    else
      match escaped? c with
      | some d => .emit d
      | none => .stop .invalidEscape
  | .hex size value high, c =>
    let value := value.bind fun v => (Text.hexValue? c).map (16 * v + ·)
    let size := size + c.utf8Size
    if size < 4 then .next (.hex size value high)
    else
      match value with
      | some unit => hexStep high unit
      | none => .stop .invalidEscape
  | .pair high, c => if c = '\\' then .next (.pairEscape high) else .stop .hexEscapeEnd
  | .pairEscape high, c =>
    if c = 'u' then .next (.hex 0 (some 0) (some high)) else .stop .hexEscapeEnd

/-- How many bytes of the next character belong to what is being read. -/
def StringState.bytesLeft : StringState → Nat
  | .hex size _ _ => 4 - size
  | _ => 1

/-- The place at which reading a string stops because of the next character. -/
def stringStopPlace (state : StringState) (p : Position) (c : Char) : Position :=
  if c = '\n' then p.over c
  else ⟨p.line, p.column + min c.utf8Size state.bytesLeft⟩

/-- Reads the rest of a string up to its closing quote. -/
def readStringFrom : StringState → Position → Text → Outcome ε Text
  | _, p, [] => .error (.fault .eofString p)
  | state, p, c :: rest =>
    match stringStep state c with
    | .closed => .ok ([], ⟨rest, p.over c⟩)
    | .next state => readStringFrom state (p.over c) rest
    | .emit d =>
      match readStringFrom .text (p.over c) rest with
      | .ok (t, after) => .ok (d :: t, after)
      | .error e => .error e
    | .stop f => .error (.fault f (stringStopPlace state p c))

/-- Reads a string whose opening quote has been read. -/
def readString (c : Cursor) : Outcome ε Text := readStringFrom .text c.position c.rest

/-! ### Numbers -/

/-- The digits at the cursor. -/
def digitsAt (c : Cursor) : Text := c.rest.takeWhile Text.isDigit

/-- Adds digits to a number as long as it stays below the bound, and gives those left over. -/
def absorb (bound : Nat) : Nat → Text → Nat × Text
  | n, [] => (n, [])
  | n, d :: ds =>
    if 10 * n + Text.digitValue d < bound then absorb bound (10 * n + Text.digitValue d) ds
    else (n, d :: ds)

/-- A power of ten as a floating-point number. -/
def powerOfTen (n : Nat) : Binary64 := (Binary64.ofDecimal? false 1 n).getD (.zero false)

/-- A number times a power of ten. Powers below 10^(-308) are divided out in several steps, which
end as soon as nothing is left. -/
def scaleByTen : (steps : Nat) → Binary64 → Int → Option Binary64
  | 0, x, _ => some x
  | steps + 1, x, e =>
    if e.natAbs ≤ 308 then
      if 0 ≤ e then x.mul? (powerOfTen e.natAbs) else x.div? (powerOfTen e.natAbs)
    else if x.mantissa = 0 then some x
    else if 0 ≤ e then none
    else (x.div? (powerOfTen 308)).bind fun y => scaleByTen steps y (e + 308)

/-- Significant digits times a power of ten. -/
def realOfParts? (significand : Nat) (exponent : Int) : Option Binary64 :=
  scaleByTen 4 (.ofInt significand) exponent

/-- What has been read of a number that is not an integer: its significant digits and the power
of ten that they are multiplied by. -/
structure RealParts where
  significand : Nat
  exponent : Int
  deriving DecidableEq, Repr

/-- The number made of its parts. -/
def realOf (negative : Bool) (parts : RealParts) (c : Cursor) : Outcome ε Json :=
  match realOfParts? parts.significand parts.exponent with
  | some x => .ok (.real (x.withSign negative), c)
  | none => stopAt c .numberOutOfRange

/-- Reads the exponent whose `e` has been read. -/
def readExponent (negative : Bool) (parts : RealParts) (c : Cursor) : Outcome ε Json :=
  let minus := c.rest.head? = some '-'
  let c := if minus || c.rest.head? = some '+' then c.advance else c
  let digits := digitsAt c
  if c.rest.isEmpty then stopAt c .eofValue
  else if digits.isEmpty then stopPast c .invalidNumber
  else
    let (n, extra) := absorb (Nat.pow 2 31) 0 digits
    if !extra.isEmpty then
      if parts.significand ≠ 0 && !minus then
        stopAt (c.skip (digits.length - extra.length + 1)) .numberOutOfRange
      else .ok (.real (.zero negative), c.skip digits.length)
    else
      let exponent : Int := if minus then parts.exponent - n else parts.exponent + n
      realOf negative ⟨parts.significand, exponent⟩ (c.skip digits.length)

/-- Reads what may follow the digits of a number that is not an integer. -/
def readRealEnd (negative : Bool) (parts : RealParts) (c : Cursor) : Outcome ε Json :=
  match c.rest with
  | 'e' :: _ | 'E' :: _ => readExponent negative parts c.advance
  | _ => realOf negative parts c

/-- Reads the digits behind a point that has been read. -/
def readFraction (negative : Bool) (parts : RealParts) (c : Cursor) : Outcome ε Json :=
  let digits := digitsAt c
  if digits.isEmpty then stopPast c (if c.rest.isEmpty then .eofValue else .invalidNumber)
  else
    let (significand, extra) := absorb Text.countBound parts.significand digits
    let used : Int := digits.length - extra.length
    readRealEnd negative ⟨significand, parts.exponent - used⟩ (c.skip digits.length)

/-- The integer of 64 bits with the given digits, or the floating-point number nearest to it. Zero
with a minus sign is not an integer. -/
def integerOf (negative : Bool) (n : Nat) : Json :=
  if !negative then .integer n
  else if n = 0 || n > Nat.pow 2 63 then .real ((Binary64.ofInt n).withSign true)
  else .integer (-n)

/-- Reads a number, the minus sign of which has been read if it has one. -/
def readNumber (negative : Bool) (c : Cursor) : Outcome ε Json :=
  let digits := digitsAt c
  if c.rest.isEmpty then stopAt c .eofValue
  else if digits.isEmpty then stopPast c .invalidNumber
  else if digits.head? = some '0' && digits.length > 1 then stopPast c.advance .invalidNumber
  else
    let (significand, extra) := absorb Text.countBound 0 digits
    let parts : RealParts := ⟨significand, extra.length⟩
    let c := c.skip digits.length
    match c.rest with
    | '.' :: _ => readFraction negative parts c.advance
    | 'e' :: _ | 'E' :: _ => readExponent negative parts c.advance
    | _ =>
      if extra.isEmpty then .ok (integerOf negative significand, c) else realOf negative parts c

end BlockDocument.Json
