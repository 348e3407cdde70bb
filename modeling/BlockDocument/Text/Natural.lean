import BlockDocument.Text.Basic

/-!
# Natural numbers written in decimal

A machine-sized count is written as an optional `+` and one or more ASCII digits, and has to
stay below 2^64.
-/

namespace BlockDocument.Text

/-- Whether a character is one of `0` to `9`. -/
def isDigit (c : Char) : Bool := '0'.toNat ≤ c.toNat && c.toNat ≤ '9'.toNat

/-- The value of an ASCII digit. -/
def digitValue (c : Char) : Nat := c.toNat - '0'.toNat

/-- The value of a sequence of digits that continues the number `seen`. -/
def digitsValue (seen : Nat) (digits : Text) : Nat :=
  digits.foldl (fun n c => 10 * n + digitValue c) seen

/-- One more than the largest count. -/
def countBound : Nat := Nat.pow 2 64

/-- Reads one or more digits as a number below `countBound`. -/
def readDigits? (t : Text) : Option Nat :=
  if t.isEmpty || !t.all isDigit then none
  else if digitsValue 0 t < countBound then some (digitsValue 0 t) else none

/-- Reads a count, with or without a `+` in front. -/
def readCount? : Text → Option Nat
  | '+' :: digits => readDigits? digits
  | digits => readDigits? digits

end BlockDocument.Text
