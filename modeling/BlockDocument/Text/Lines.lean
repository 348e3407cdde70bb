import BlockDocument.Text.Basic

/-!
# Lines

A line ends at a line feed, or at a carriage return and the line feed after it. The last line
may lack its end; a text that ends in a line end has no further, empty line.
-/

namespace BlockDocument.Text

/-- The lines of a text without their ends. -/
def lines : Text → List Text
  | [] => []
  | '\n' :: rest => [] :: lines rest
  | '\r' :: '\n' :: rest => [] :: lines rest
  | c :: rest => extendFirst c (lines rest)

end BlockDocument.Text
