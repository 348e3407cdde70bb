import BlockDocument.Decimal.Binary64

/-!
# The shortest decimal that reads back

The decimals that round to a number form an interval around it, with its ends when the mantissa
is even. For one, two, … seventeen digits, the two neighbours of the number on the grid of
decimals of that length are tried; the first grid that has one of them in the interval gives the
answer, and of two of them the nearer. Whoever asks says which way a tie goes.
-/

namespace BlockDocument

/-- The magnitude `digits * 10 ^ exponent`. -/
structure Decimal where
  digits : Nat
  exponent : Int
  deriving DecidableEq, Repr

namespace Decimal

/-- The ratio `num / den * 10 ^ e`, as numerator and denominator. -/
def shift (num den : Nat) (e : Int) : Nat × Nat :=
  match e with
  | .ofNat n => (num * Nat.pow 10 n, den)
  | .negSucc n => (num, den * Nat.pow 10 (n + 1))

/-- The number of decimal digits of a natural number. -/
def width (n : Nat) : Nat := (Nat.toDigits 10 n).length

/-- The `k` with `10 ^ (k - 1) ≤ num / den < 10 ^ k`, for a positive ratio. -/
def magnitude (num den : Nat) : Int :=
  let k : Int := (width num : Int) - width den
  let s := shift num den (-k)
  if s.2 ≤ s.1 then k + 1 else k

/-- Takes the trailing zeros off the digits, at most `limit` of them. -/
def trimZeros : (limit : Nat) → Decimal → Decimal
  | 0, d => d
  | limit + 1, d =>
    if d.digits % 10 = 0 then trimZeros limit ⟨d.digits / 10, d.exponent + 1⟩ else d

end Decimal

namespace Binary64

/-- How far the interval reaches below the number, in quarters of its last place. -/
def quartersBelow (x : Binary64) : Nat :=
  if x.mantissa = Nat.pow 2 52 ∧ x.exponent ≠ minExponent then 1 else 2

/-- Whether the decimal `candidate * 10 ^ e` rounds to the positive number `x`. -/
def admits (x : Binary64) (candidate : Nat) (e : Int) : Bool :=
  -- All in units of `2 ^ (x.exponent - 2)`.
  let unit : Nat × Nat := (Binary64.mk false 1 (x.exponent - 2)).ratio
  let c := Decimal.shift candidate 1 e
  let lower := (4 * x.mantissa - x.quartersBelow) * (unit.1 * c.2)
  let upper := (4 * x.mantissa + 2) * (unit.1 * c.2)
  let value := c.1 * unit.2
  if x.mantissa % 2 = 0 then lower ≤ value && value ≤ upper else lower < value && value < upper

/-- Which of two equally near decimals is taken: the greater one, or the one with the even digit. -/
inductive Tie
  | up | even
  deriving DecidableEq, Repr

/-- The integer nearest to a ratio. -/
def nearest (tie : Tie) (num den : Nat) : Nat :=
  let low := num / den
  let twice := 2 * (num % den)
  if twice < den || (twice == den && tie = .even && low % 2 = 0) then low else low + 1

/-- The best decimal on the grid of multiples of `10 ^ e`, if one rounds to `x`. -/
def onGrid? (x : Binary64) (tie : Tie) (e : Int) : Option Decimal :=
  let s := Decimal.shift x.ratio.1 x.ratio.2 (-e)
  let low := s.1 / s.2
  match x.admits low e, x.admits (low + 1) e with
  | true, true => some ⟨nearest tie s.1 s.2, e⟩
  | true, false => some ⟨low, e⟩
  | false, true => some ⟨low + 1, e⟩
  | false, false => none

/-- The fewest digits that read back to a positive number. -/
def shortest (x : Binary64) (tie : Tie) : Decimal :=
  let k := Decimal.magnitude x.ratio.1 x.ratio.2
  let found := (List.range 17).findSome? fun (n : Nat) => x.onGrid? tie (k - (n + 1 : Nat))
  (found.getD ⟨0, 0⟩).trimZeros 20

end Binary64

end BlockDocument
