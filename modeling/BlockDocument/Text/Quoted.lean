import BlockDocument.Text.Printable

/-!
# Quoted text

Text that a message quotes stands between double quotes. Quotes and backslashes in it are escaped,
and so are the characters that would not show: those that are not printable, and those that only
extend the character before them.
-/

namespace BlockDocument.Text

/-- A character of quoted text. -/
def quoteChar (c : Char) : Text :=
  match c with
  | '\x00' => "\\0".toList
  | '\t' => "\\t".toList
  | '\r' => "\\r".toList
  | '\n' => "\\n".toList
  | '"' => "\\\"".toList
  | '\\' => "\\\\".toList
  | c =>
    if isPrintable c && !extendsGrapheme c then [c]
    else "\\u\x7b".toList ++ Nat.toDigits 16 c.toNat ++ "\x7d".toList

/-- Text between double quotes. -/
def quote (t : Text) : Text := '"' :: t.flatMap quoteChar ++ ['"']

end BlockDocument.Text
