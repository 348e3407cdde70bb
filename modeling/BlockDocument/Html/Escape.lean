import BlockDocument.Text.Basic

/-!
# Escaping

Five characters mean something to a reader of HTML: `&`, `<`, `>` and the two quotes. Each is
written as an entity, and every other character as itself. The apostrophe takes the numeric
form, since `&apos;` is not an entity of HTML 4.
-/

namespace BlockDocument.Html

/-- How one character of text is written. -/
def entity : Char → Text
  | '&' => "&amp;".toList
  | '<' => "&lt;".toList
  | '>' => "&gt;".toList
  | '"' => "&quot;".toList
  | '\'' => "&#39;".toList
  | c => [c]

/-- Text as it is written between tags and inside attribute values. -/
def escape (t : Text) : Text := t.flatMap entity

@[simp]
theorem escape_nil : escape [] = [] := rfl

@[simp]
theorem escape_cons (c : Char) (t : Text) : escape (c :: t) = entity c ++ escape t := rfl

@[simp]
theorem escape_append (s t : Text) : escape (s ++ t) = escape s ++ escape t :=
  List.flatMap_append

end BlockDocument.Html
