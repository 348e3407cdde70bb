import BlockDocument.Decimal.Shortest

/-!
# Number text

A number is shown by its shortest digits. `positional` never uses an exponent and shows a whole
number without a point; a tie between two shortest texts goes up. `scientific` always shows a point
or an exponent, and takes the exponent, with its sign, for numbers of more than sixteen places
before the point or more than four zeros behind it; a tie goes to the even digit.
-/

namespace BlockDocument

namespace Decimal

/-- `count` zeros. -/
def zeros (count : Nat) : Text := List.replicate count '0'

/-- Digits with a point after the first `whole` of them, or zeros where there are none. -/
def placePoint (digits : Text) (whole : Int) : Text :=
  if whole ≤ 0 then "0.".toList ++ zeros (-whole).toNat ++ digits
  else digits.take whole.toNat ++ '.' :: digits.drop whole.toNat

/-- A positive magnitude in positional notation. -/
def positional (d : Decimal) : Text :=
  let digits := Text.ofNat d.digits
  if 0 ≤ d.exponent then digits ++ zeros d.exponent.toNat
  else placePoint digits (digits.length + d.exponent)

/-- An exponent with its sign. -/
def exponentText (e : Int) : Text := if e < 0 then Text.ofInt e else '+' :: Text.ofInt e

/-- A positive magnitude with a point or an exponent. -/
def scientific (d : Decimal) : Text :=
  let digits := Text.ofNat d.digits
  let whole := digits.length + d.exponent
  if 0 ≤ d.exponent ∧ whole ≤ 16 then digits ++ zeros d.exponent.toNat ++ ".0".toList
  else if -5 < whole ∧ whole ≤ 16 then placePoint digits whole
  else
    let lead := if digits.length = 1 then digits else placePoint digits 1
    lead ++ 'e' :: exponentText (whole - 1)

end Decimal

namespace Binary64

/-- The sign of a number as it is written. -/
def signText (x : Binary64) : Text := if x.negative then ['-'] else []

/-- A number in positional notation. -/
def positional (x : Binary64) : Text :=
  x.signText ++ if x.mantissa = 0 then ['0'] else (x.shortest .up).positional

/-- A number with a point or an exponent. -/
def scientific (x : Binary64) : Text :=
  x.signText ++ if x.mantissa = 0 then "0.0".toList else (x.shortest .even).scientific

end Binary64

end BlockDocument
