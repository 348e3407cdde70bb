import BlockDocument.Text.Basic

/-!
# Blank characters

A character is blank when it has the Unicode property White_Space. Trimming takes blank
characters off the ends of a text and leaves those inside it alone.
-/

namespace BlockDocument

/-- Whether a character has the Unicode property White_Space. -/
def isBlank (c : Char) : Bool :=
  let n := c.toNat
  (9 ≤ n && n ≤ 13) || n == 0x20 || n == 0x85 || n == 0xA0 || n == 0x1680 ||
    (0x2000 ≤ n && n ≤ 0x200A) || n == 0x2028 || n == 0x2029 || n == 0x202F || n == 0x205F ||
    n == 0x3000

namespace Text

/-- The text without its leading blank characters. -/
def trimStart (t : Text) : Text := t.dropWhile isBlank

/-- The text without its trailing blank characters. -/
def trimEnd : Text → Text
  | [] => []
  | c :: rest =>
    match trimEnd rest with
    | [] => if isBlank c then [] else [c]
    | kept => c :: kept

/-- The text without blank characters at either end. -/
def trim (t : Text) : Text := trimEnd (trimStart t)

end Text

end BlockDocument
