import BlockDocument.Text.Natural
import BlockDocument.Text.Word

/-!
# Line references

A message may say on which line of a text the trouble is. The first place where it does is the
word `line` in any case, one space, and a number.
-/

namespace BlockDocument

/-- The digits of a line reference that the text begins with. -/
def lineDigits? (t : Text) : Option Text :=
  let digits := (t.drop 5).takeWhile Text.isDecimalDigit
  if Text.asciiLower (t.take 5) = "line ".toList && !digits.isEmpty then some digits else none

/-- The digits of the first line reference at the start of a word. -/
def firstLineDigits? : (inWord : Bool) → Text → Option Text
  | _, [] => none
  | inWord, c :: rest =>
    match if inWord then none else lineDigits? (c :: rest) with
    | some digits => some digits
    | none => firstLineDigits? (Text.isWord c) rest

/-- The line that a message refers to first, if it can be written as a count. -/
def lineReference? (message : Text) : Option Nat :=
  (firstLineDigits? false message).bind Text.readDigits?

end BlockDocument
