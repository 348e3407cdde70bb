import BlockDocument.Text.Basic

/-!
# Binary numbers of 64 bits

A finite number is a sign, a mantissa below 2^53 and a power of two not below 2^(-1074). A ratio
of natural numbers is rounded to the nearest such number, and of two equally near ones to the one
with the even mantissa. Multiplying and dividing round the exact result once.
-/

namespace BlockDocument

/-- A finite floating-point number: its magnitude is `mantissa * 2 ^ exponent`. -/
structure Binary64 where
  negative : Bool
  mantissa : Nat
  exponent : Int
  deriving DecidableEq, Repr

namespace Binary64

/-- The least power of two that a mantissa is multiplied by. -/
def minExponent : Int := -1074

/-- The greatest power of two that a mantissa is multiplied by. -/
def maxExponent : Int := 971

/-- A mantissa is smaller than this. -/
def mantissaBound : Nat := Nat.pow 2 53

/-- Zero with a sign. -/
def zero (negative : Bool) : Binary64 := ⟨negative, 0, minExponent⟩

/-- The quotient rounded to the nearest integer, a half going to the even neighbour. -/
def roundDiv (num den : Nat) : Nat :=
  let twice := 2 * (num % den)
  if twice > den || (twice == den && num / den % 2 == 1) then num / den + 1 else num / den

/-- The ratio `num / den / 2 ^ e`, as numerator and denominator. -/
def scale (num den : Nat) (e : Int) : Nat × Nat :=
  match e with
  | .ofNat n => (num, den * Nat.pow 2 n)
  | .negSucc n => (num * Nat.pow 2 (n + 1), den)

/-- The power of two that gives a positive ratio a mantissa of 53 bits, or the least power. -/
def exponentFor (num den : Nat) : Int :=
  let e : Int := num.log2 - den.log2 - 52
  let s := scale num den e
  max minExponent (if s.1 < Nat.pow 2 52 * s.2 then e - 1 else e)

/-- The number nearest to a ratio, or nothing when that is too large. -/
def ofRatio? (negative : Bool) (num den : Nat) : Option Binary64 :=
  if num = 0 then some (zero negative)
  else
    let e := exponentFor num den
    let s := scale num den e
    let m := roundDiv s.1 s.2
    let r : Binary64 :=
      if m = mantissaBound then ⟨negative, Nat.pow 2 52, e + 1⟩ else ⟨negative, m, e⟩
    if r.exponent > maxExponent then none else some r

/-- The magnitude as numerator and denominator. -/
def ratio (x : Binary64) : Nat × Nat :=
  match x.exponent with
  | .ofNat n => (x.mantissa * Nat.pow 2 n, 1)
  | .negSucc n => (x.mantissa, Nat.pow 2 (n + 1))

/-- The number nearest to an integer of at most 64 bits. -/
def ofInt (n : Int) : Binary64 :=
  (ofRatio? (n < 0) n.natAbs 1).getD (zero false)

/-- The same number with a sign. -/
def withSign (x : Binary64) (negative : Bool) : Binary64 := { x with negative }

/-- The rounded product. -/
def mul? (x y : Binary64) : Option Binary64 :=
  ofRatio? (x.negative != y.negative) (x.ratio.1 * y.ratio.1) (x.ratio.2 * y.ratio.2)

/-- The rounded quotient by a number other than zero. -/
def div? (x y : Binary64) : Option Binary64 :=
  ofRatio? (x.negative != y.negative) (x.ratio.1 * y.ratio.2) (x.ratio.2 * y.ratio.1)

/-- The number nearest to `digits * 10 ^ exponent`. -/
def ofDecimal? (negative : Bool) (digits : Nat) (exponent : Int) : Option Binary64 :=
  match exponent with
  | .ofNat n => ofRatio? negative (digits * Nat.pow 10 n) 1
  | .negSucc n => ofRatio? negative digits (Nat.pow 10 (n + 1))

end Binary64

end BlockDocument
