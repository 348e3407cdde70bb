import BlockDocument.Text.Natural

/-!
# Digits of other bases

A digit above nine is one of the ASCII letters from `a` on, in either case.
-/

namespace BlockDocument.Text

/-- The value of a hexadecimal digit. -/
def hexValue? (c : Char) : Option Nat :=
  if isDigit c then some (c.toNat - '0'.toNat)
  else if 'a'.toNat ≤ c.toNat && c.toNat ≤ 'f'.toNat then some (c.toNat - 'a'.toNat + 10)
  else if 'A'.toNat ≤ c.toNat && c.toNat ≤ 'F'.toNat then some (c.toNat - 'A'.toNat + 10)
  else none

/-- The value of a digit of a base up to sixteen. -/
def valueIn? (base : Nat) (c : Char) : Option Nat := (hexValue? c).filter (· < base)

/-- The value of digits of a base that continue the number `seen`. -/
def valueOf? (base : Nat) : (seen : Nat) → Text → Option Nat
  | seen, [] => some seen
  | seen, c :: t => (valueIn? base c).bind fun n => valueOf? base (base * seen + n) t

end BlockDocument.Text
