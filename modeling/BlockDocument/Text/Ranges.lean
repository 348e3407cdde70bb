import BlockDocument.Text.Basic

/-!
# Ranges of characters

A property of characters is given by the ranges of code points that have it, in ascending order
and with both ends included.
-/

namespace BlockDocument.Text

/-- Whether a character lies in one of the ranges. -/
def inRanges (ranges : List (Nat × Nat)) (c : Char) : Bool :=
  ranges.any fun r => r.1 ≤ c.toNat && c.toNat ≤ r.2

end BlockDocument.Text
