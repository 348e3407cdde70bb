/-!
# Text

Text is a list of characters. Everything in this library reads it from the front and writes it
by appending, so recursion over text is recursion over a list.
-/

namespace BlockDocument

/-- A sequence of characters. -/
abbrev Text := List Char

namespace Text

/-- The texts in order, with `separator` between each two of them. -/
def join (separator : Text) : List Text → Text
  | [] => []
  | [t] => t
  | t :: ts => t ++ separator ++ join separator ts

/-- `count` copies of a text. -/
def copies (t : Text) : Nat → Text
  | 0 => []
  | n + 1 => t ++ copies t n

/-- Puts a character in front of the first of some texts. -/
def extendFirst (c : Char) : List Text → List Text
  | [] => [[c]]
  | t :: ts => (c :: t) :: ts

/-- What stands before and after the first `mark`, if there is one. -/
def splitFirst (mark : Char) : Text → Option (Text × Text)
  | [] => none
  | c :: rest =>
    if c = mark then some ([], rest)
    else (splitFirst mark rest).map fun parts => (c :: parts.1, parts.2)

/-- The rest of a text that begins with the given start. -/
def afterStart? : Text → Text → Option Text
  | [], t => some t
  | _ :: _, [] => none
  | c :: start, d :: t => if c = d then afterStart? start t else none

theorem afterStart?_eq_some_iff {rest : Text} : ∀ {start t : Text},
    afterStart? start t = some rest ↔ t = start ++ rest
  | [], t => by simp [afterStart?]
  | c :: start, [] => by simp [afterStart?]
  | c :: start, d :: t => by
    rw [afterStart?, List.cons_append, List.cons.injEq]
    split
    · rename_i hcd
      simp [hcd, afterStart?_eq_some_iff]
    · rename_i hcd
      simp [Ne.symm hcd]

/-- The ASCII letters `A` to `Z` in lower case, and every other character as it is. -/
def asciiLower (t : Text) : Text := t.map Char.toLower

/-- How many bytes a text takes when written. -/
def byteSize : Text → Nat
  | [] => 0
  | c :: t => c.utf8Size + byteSize t

/-- Decimal digits of a natural number, without leading zeros. -/
def ofNat (n : Nat) : Text := Nat.toDigits 10 n

/-- Decimal digits of an integer, with a `-` in front of a negative one. -/
def ofInt : Int → Text
  | .ofNat n => ofNat n
  | .negSucc n => '-' :: ofNat (n + 1)

end Text

end BlockDocument
