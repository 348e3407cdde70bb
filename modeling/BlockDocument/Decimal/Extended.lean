import BlockDocument.Decimal.Notation

/-!
# Numbers and what is none

Beside the finite numbers there are the two infinities and what is no number at all. Read as a
count, a number is rounded to the nearest integer, a half going up, and kept between zero and the
largest count; what is no number counts as zero.
-/

namespace BlockDocument

/-- A floating-point number, an infinity, or no number. -/
inductive Extended
  | finite (value : Binary64)
  | infinite (negative : Bool)
  | notANumber
  deriving DecidableEq, Repr

namespace Extended

/-- A number in positional notation, or the name of what is none. -/
def display : Extended → Text
  | finite x => x.positional
  | infinite false => "inf".toList
  | infinite true => "-inf".toList
  | notANumber => "NaN".toList

/-- Whether it is a zero, of either sign. -/
def isZero : Extended → Bool
  | finite x => x.mantissa = 0
  | _ => false

/-- The integer nearest to a finite magnitude, a half going up. -/
def roundMagnitude (x : Binary64) : Nat := (2 * x.ratio.1 + x.ratio.2) / (2 * x.ratio.2)

/-- The count below `bound` that is nearest. -/
def toCount (bound : Nat) : Extended → Nat
  | finite x => if x.negative then 0 else min (roundMagnitude x) (bound - 1)
  | infinite negative => if negative then 0 else bound - 1
  | notANumber => 0

end Extended

end BlockDocument
