import BlockDocument.Config.Setting
import BlockDocument.Text.Hexadecimal

/-!
# Numbers in TOML

A single underscore may stand between two digits. An integer has a sign of its own only in base
ten, begins with a zero only if it is one, and has to be one of 64 bits. A number with a fraction
or an exponent is the nearest floating-point number.
-/

namespace BlockDocument.Toml

/-- Digits without the underscores between them. -/
def plainDigits? (isDigit : Char → Bool) : Text → Option Text
  | [] => none
  | [c] => if isDigit c then some [c] else none
  | c :: '_' :: t => if isDigit c then (plainDigits? isDigit t).map (c :: ·) else none
  | c :: t => if isDigit c then (plainDigits? isDigit t).map (c :: ·) else none

/-- Decimal digits, which begin with a zero only if there are no others. -/
def wholeDigits? (t : Text) : Option Text :=
  match plainDigits? Text.isDigit t with
  | some ('0' :: _ :: _) => none
  | digits => digits

/-- A sign, true if it is a minus, and what follows it. -/
def splitSign : Text → Bool × Text
  | '-' :: t => (true, t)
  | '+' :: t => (false, t)
  | t => (false, t)

/-- An integer of 64 bits. -/
def integer? (negative : Bool) (magnitude : Nat) : Option Setting :=
  if negative then
    if magnitude ≤ Nat.pow 2 63 then some (.integer (-magnitude)) else none
  else if magnitude < Nat.pow 2 63 then some (.integer magnitude) else none

/-- Reads an integer of a base other than ten. -/
def readInBase? (base : Nat) (t : Text) : Option Setting :=
  match plainDigits? (fun c => (Text.valueIn? base c).isSome) t with
  | none => none
  | some digits => (Text.valueOf? base 0 digits).bind (integer? false)

/-- Reads a decimal integer. -/
def readDecimal? (t : Text) : Option Setting :=
  let (negative, t) := splitSign t
  (wholeDigits? t).bind fun digits => integer? negative (Text.digitsValue 0 digits)

/-- A power of ten so large that no floating-point number reaches it. -/
def farExponent : Int := 400

/-- The number nearest to digits times a power of ten. One that is too large is an infinity. -/
def realOf (negative : Bool) (digits : Text) (exponent : Int) : Extended :=
  let n := Text.digitsValue 0 digits
  if n = 0 || digits.length + exponent < -farExponent then .finite (.zero negative)
  else if exponent > farExponent then .infinite negative
  else
    match Binary64.ofDecimal? negative n exponent with
    | some x => .finite x
    | none => .infinite negative

/-- Whether a character begins an exponent. -/
def isExponentMark (c : Char) : Bool := c == 'e' || c == 'E'

/-- Reads the exponent that ends a number, zero if there is none. -/
def readExponent? : Text → Option Int
  | [] => some 0
  | _ :: t =>
    let (negative, t) := splitSign t
    (plainDigits? Text.isDigit t).map fun digits =>
      if negative then -(Text.digitsValue 0 digits : Int) else Text.digitsValue 0 digits

/-- Reads the fraction of a number, if there is one. -/
def readFraction? : Text → Option Text
  | [] => some []
  | _ :: t => plainDigits? Text.isDigit t

/-- Reads a number with a fraction or an exponent. One above every floating-point number is
refused. -/
def readReal? (t : Text) : Option Setting := do
  let (negative, t) := splitSign t
  if !t.any fun c => c = '.' || isExponentMark c then none
  let mantissa := t.takeWhile fun c => !isExponentMark c
  let whole ← wholeDigits? (mantissa.takeWhile (· ≠ '.'))
  let fraction ← readFraction? (mantissa.dropWhile (· ≠ '.'))
  let exponent ← readExponent? (t.dropWhile fun c => !isExponentMark c)
  let x := realOf negative (whole ++ fraction) (exponent - fraction.length)
  if x = .infinite false then none else some (.real x)

/-- Reads one of the words for what is no finite number. -/
def readSpecial? (t : Text) : Option Setting :=
  let (negative, t) := splitSign t
  if t = "inf".toList then some (.real (.infinite negative))
  else if t = "nan".toList then some (.real .notANumber)
  else none

/-- Reads a number. -/
def readNumber? : Text → Option Setting
  | '0' :: 'x' :: t => readInBase? 16 t
  | '0' :: 'o' :: t => readInBase? 8 t
  | '0' :: 'b' :: t => readInBase? 2 t
  | t => (readDecimal? t).or ((readReal? t).or (readSpecial? t))

end BlockDocument.Toml
