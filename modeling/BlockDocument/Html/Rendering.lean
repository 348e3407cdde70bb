import BlockDocument.Html.Markup
import BlockDocument.Notice

/-!
# Renderings

Rendering gives markup and the notices that came up on the way. Two renderings one after the
other are one rendering, with the markup and the notices of both in order.
-/

namespace BlockDocument.Html

/-- Markup with the notices that came up while it was made. -/
structure Rendering where
  markup : List Markup := []
  notices : List Notice := []
  deriving DecidableEq, Repr

namespace Rendering

instance : Append Rendering := ⟨fun a b => ⟨a.markup ++ b.markup, a.notices ++ b.notices⟩⟩

@[simp]
theorem markup_append (a b : Rendering) : (a ++ b).markup = a.markup ++ b.markup := rfl

@[simp]
theorem notices_append (a b : Rendering) : (a ++ b).notices = a.notices ++ b.notices := rfl

/-- Markup without a notice. -/
def pure (markup : List Markup) : Rendering := ⟨markup, []⟩

/-- A notice without markup. -/
def notice (n : Notice) : Rendering := ⟨[], [n]⟩

/-- The renderings of a list's members, one after the other. -/
def each {α : Type} (render : α → Rendering) : List α → Rendering
  | [] => {}
  | a :: as => render a ++ each render as

/-- The same notices with the markup put into an element. -/
def wrap (tag : Tag) (attributes : List Attribute) (r : Rendering) : Rendering :=
  { r with markup := element tag attributes r.markup }

end Rendering

end BlockDocument.Html
