import BlockDocument.Html.Escape

/-!
# Markup

Rendered content is a flat sequence of markup: text, opening tags, closing tags and images. The
tags and the names of attributes are fixed here, so whatever a document says can only end up in
text or in the value of an attribute, and both are escaped when the markup is written.
-/

namespace BlockDocument.Html

/-- The elements that content is made of. An image is not among them: it has no content and no
closing tag. -/
inductive Tag
  | a | blockquote | caption | code | div | em | figcaption | figure | h1 | h2 | h3 | li | ol | p
  | pre | section | span | strong | table | tbody | td | tfoot | th | thead | tr | ul
  deriving DecidableEq, Repr

/-- The name of an element as it is written. -/
def Tag.name : Tag → Text
  | .a => "a".toList
  | .blockquote => "blockquote".toList
  | .caption => "caption".toList
  | .code => "code".toList
  | .div => "div".toList
  | .em => "em".toList
  | .figcaption => "figcaption".toList
  | .figure => "figure".toList
  | .h1 => "h1".toList
  | .h2 => "h2".toList
  | .h3 => "h3".toList
  | .li => "li".toList
  | .ol => "ol".toList
  | .p => "p".toList
  | .pre => "pre".toList
  | .section => "section".toList
  | .span => "span".toList
  | .strong => "strong".toList
  | .table => "table".toList
  | .tbody => "tbody".toList
  | .td => "td".toList
  | .tfoot => "tfoot".toList
  | .th => "th".toList
  | .thead => "thead".toList
  | .tr => "tr".toList
  | .ul => "ul".toList

/-- The attributes that an opening tag may carry. -/
inductive Attribute
  | className (value : Text)
  | colspan (value : Nat)
  | href (value : Text)
  | rel (value : Text)
  | style (value : Text)
  | target (value : Text)
  deriving DecidableEq, Repr

/-- The name of an attribute. -/
def Attribute.name : Attribute → Text
  | .className _ => "class".toList
  | .colspan _ => "colspan".toList
  | .href _ => "href".toList
  | .rel _ => "rel".toList
  | .style _ => "style".toList
  | .target _ => "target".toList

/-- The value of an attribute, before it is escaped. -/
def Attribute.value : Attribute → Text
  | .className v | .href v | .rel v | .style v | .target v => v
  | .colspan n => Text.ofNat n

/-- One piece of rendered content. -/
inductive Markup
  | text (content : Text)
  | opening (tag : Tag) (attributes : List Attribute)
  | closing (tag : Tag)
  | image (source : Text) (alternative : Text)
  deriving DecidableEq, Repr

/-- A named value inside a tag, with the blank that stands in front of it. -/
def writeAttribute (name value : Text) : Text :=
  ' ' :: name ++ "=\"".toList ++ escape value ++ "\"".toList

namespace Markup

/-- One piece of content as text. -/
def write : Markup → Text
  | text content => escape content
  | opening tag attributes =>
    '<' :: tag.name ++ attributes.flatMap (fun a => writeAttribute a.name a.value) ++ ">".toList
  | closing tag => "</".toList ++ tag.name ++ ">".toList
  | image source alternative =>
    "<img".toList ++ writeAttribute "src".toList source ++ writeAttribute "alt".toList alternative
      ++ " />".toList

/-- Content as text. -/
def writeAll (content : List Markup) : Text := content.flatMap write

@[simp]
theorem writeAll_nil : writeAll [] = [] := rfl

@[simp]
theorem writeAll_cons (m : Markup) (ms : List Markup) :
    writeAll (m :: ms) = m.write ++ writeAll ms := rfl

@[simp]
theorem writeAll_append (ms ns : List Markup) :
    writeAll (ms ++ ns) = writeAll ms ++ writeAll ns :=
  List.flatMap_append

end Markup

/-- An element with its content between its two tags. -/
def element (tag : Tag) (attributes : List Attribute) (content : List Markup) : List Markup :=
  .opening tag attributes :: content ++ [.closing tag]

/-- An element that holds text only. -/
def textElement (tag : Tag) (attributes : List Attribute) (content : Text) : List Markup :=
  element tag attributes [.text content]

theorem writeAll_flatMap {α : Type} (f : α → List Markup) (as : List α) :
    Markup.writeAll (as.flatMap f) = as.flatMap fun a => Markup.writeAll (f a) := by
  rw [Markup.writeAll, List.flatMap_assoc]
  rfl

theorem writeAll_element (tag : Tag) (attributes : List Attribute) (content : List Markup) :
    Markup.writeAll (element tag attributes content)
      = (Markup.opening tag attributes).write
        ++ (Markup.writeAll content ++ (Markup.closing tag).write) := by
  rw [element, List.cons_append, Markup.writeAll_cons, Markup.writeAll_append,
    Markup.writeAll_cons, Markup.writeAll_nil, List.append_nil]

theorem writeAll_textElement (tag : Tag) (attributes : List Attribute) (content : Text) :
    Markup.writeAll (textElement tag attributes content)
      = (Markup.opening tag attributes).write
        ++ (escape content ++ (Markup.closing tag).write) := by
  rw [textElement, writeAll_element, Markup.writeAll_cons, Markup.writeAll_nil, List.append_nil]
  rfl

end BlockDocument.Html
