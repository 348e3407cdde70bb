import BlockDocument.Text.Natural

/-!
# Dates and times in TOML

A moment is a date, a time, or both, and with both there may be a distance to universal time. As
settings they are kept as text in one form: a capital `T` between date and time, nine digits of a
second at most and no zeros at their end.
-/

namespace BlockDocument.Toml

/-- Reads `count` digits as a number from `least` to `most`. -/
def readBetween (count least most : Nat) (t : Text) : Option (Nat × Text) :=
  let digits := t.take count
  let n := Text.digitsValue 0 digits
  if digits.length = count && digits.all Text.isDigit && least ≤ n && n ≤ most then
    some (n, t.drop count)
  else none

/-- A number in two digits. -/
def twoDigits (n : Nat) : Text := if n < 10 then '0' :: Text.ofNat n else Text.ofNat n

/-- Whether a year has a day more than others. -/
def isLeapYear (year : Nat) : Bool := year % 4 = 0 && (year % 100 ≠ 0 || year % 400 = 0)

/-- How many days a month has. -/
def daysIn (year month : Nat) : Nat :=
  if month = 2 then if isLeapYear year then 29 else 28
  else if month = 4 || month = 6 || month = 9 || month = 11 then 30
  else 31

/-- Reads a date. -/
def readDate (t : Text) : Option (Text × Text) := do
  let (year, rest) ← readBetween 4 0 9999 t
  let rest ← Text.afterStart? ['-'] rest
  let (month, rest) ← readBetween 2 1 12 rest
  let rest ← Text.afterStart? ['-'] rest
  let (_, rest) ← readBetween 2 1 (daysIn year month) rest
  some (t.take 10, rest)

/-- The digits of a fraction of a second, without zeros at their end. -/
def fractionText (digits : Text) : Text :=
  match ((digits.take 9).reverse.dropWhile (· = '0')).reverse with
  | [] => []
  | kept => '.' :: kept

/-- Reads a time of day. -/
def readTime (t : Text) : Option (Text × Text) := do
  let (_, rest) ← readBetween 2 0 23 t
  let rest ← Text.afterStart? [':'] rest
  let (_, rest) ← readBetween 2 0 59 rest
  let rest ← Text.afterStart? [':'] rest
  let (_, rest) ← readBetween 2 0 60 rest
  match rest with
  | '.' :: behind =>
    let digits := behind.takeWhile Text.isDigit
    if digits.isEmpty then none
    else some (t.take 8 ++ fractionText digits, behind.dropWhile Text.isDigit)
  | _ => some (t.take 8, rest)

/-- Reads a distance to universal time, up to the end of the text. -/
def readOffset? : Text → Option Text
  | [] => some []
  | c :: t =>
    if c = 'Z' || c = 'z' then if t.isEmpty then some ['Z'] else none
    else if c = '+' || c = '-' then do
      let (hours, rest) ← readBetween 2 0 23 t
      let rest ← Text.afterStart? [':'] rest
      let (minutes, rest) ← readBetween 2 0 59 rest
      if !rest.isEmpty then none
      let sign := if hours = 0 && minutes = 0 then '+' else c
      some (sign :: twoDigits hours ++ ':' :: twoDigits minutes)
    else none

/-- Whether a character may stand between a date and a time. -/
def isDateEnd (c : Char) : Bool := c == 'T' || c == 't' || c == ' '

/-- Reads a moment, up to the end of the text. -/
def readMoment? (t : Text) : Option Text :=
  match readDate t with
  | some (date, []) => some date
  | some (date, c :: rest) =>
    if isDateEnd c then do
      let (time, rest) ← readTime rest
      let offset ← readOffset? rest
      some (date ++ 'T' :: time ++ offset)
    else none
  | none =>
    match readTime t with
    | some (time, []) => some time
    | _ => none

end BlockDocument.Toml
