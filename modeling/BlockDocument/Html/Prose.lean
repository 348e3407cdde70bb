import BlockDocument.Text.Lines
import BlockDocument.Html.Heading

/-!
# Prose

Prose is read a line at a time. Each line is trimmed and classified, and lines of one class that
follow each other go together: text lines into a paragraph, bullet lines into a list, quoted
lines into a quotation. A blank line ends what is being collected, and a heading stands alone.

A `Draft` holds the markup written so far and the lines collected for the paragraph, list or
quotation that is still open. Feeding a line first closes what the line does not continue.
-/

namespace BlockDocument.Html

/-- The class of a trimmed line, with the part of the line that is shown. -/
inductive ProseLine
  | blank
  | heading (level : HeadingLevel) (content : Text)
  | bullet (content : Text)
  | quoted (content : Text)
  | plain (content : Text)
  deriving DecidableEq, Repr

namespace ProseLine

/-- Reads a bullet line: `-` or `*`, blank characters, and the item. -/
def readBullet? : Text → Option Text
  | '-' :: rest | '*' :: rest => afterMarker? rest
  | _ => none

/-- Reads a quoted line: `>`, and the rest of the line without the space that may come first. -/
def readQuoted? : Text → Option Text
  | '>' :: ' ' :: rest => if rest.contains '\n' then none else some rest
  | '>' :: rest => if rest.contains '\n' then none else some rest
  | _ => none

/-- The class of a trimmed line. -/
def classify (line : Text) : ProseLine :=
  if line.isEmpty then blank
  else
    match readHeading? line with
    | some (level, content) => heading level content
    | none =>
      match readBullet? line with
      | some content => bullet content
      | none =>
        match readQuoted? line with
        | some content => quoted content
        | none => plain line

end ProseLine

/-- A paragraph of text lines, which a space joins. -/
def paragraphMarkup (lines : List Text) : List Markup :=
  element .p [] (inlineMarkup (Text.join [' '] lines))

/-- A list with an item for each line. -/
def bulletMarkup (items : List Text) : List Markup :=
  element .ul [] (items.flatMap fun item => element .li [] (inlineMarkup item))

/-- A quotation with a paragraph for each line. -/
def quotationMarkup (lines : List Text) : List Markup :=
  element .blockquote [] (lines.flatMap fun line => element .p [] (inlineMarkup line))

/-- Prose that is being written: the markup so far and the lines collected since. -/
structure Draft where
  written : List Markup := []
  paragraph : List Text := []
  bullets : List Text := []
  quotation : List Text := []
  deriving DecidableEq, Repr

namespace Draft

/-- Appends markup. -/
def write (d : Draft) (content : List Markup) : Draft :=
  { d with written := d.written ++ content }

/-- Writes the collected paragraph, if there is one. -/
def closeParagraph (d : Draft) : Draft :=
  if d.paragraph.isEmpty then d
  else { d.write (paragraphMarkup d.paragraph) with paragraph := [] }

/-- Writes the collected list, if there is one. -/
def closeBullets (d : Draft) : Draft :=
  if d.bullets.isEmpty then d
  else { d.write (bulletMarkup d.bullets) with bullets := [] }

/-- Writes the collected quotation, if there is one. -/
def closeQuotation (d : Draft) : Draft :=
  if d.quotation.isEmpty then d
  else { d.write (quotationMarkup d.quotation) with quotation := [] }

/-- Writes whatever is collected. -/
def close (d : Draft) : Draft := d.closeParagraph.closeBullets.closeQuotation

/-- Takes in one line. -/
def feed (d : Draft) : ProseLine → Draft
  | .blank => d.close
  | .heading level content => d.close.write (headingMarkup level content)
  | .bullet content =>
    let d := d.closeParagraph.closeQuotation
    { d with bullets := d.bullets ++ [content] }
  | .quoted content =>
    let d := d.closeParagraph.closeBullets
    { d with quotation := d.quotation ++ [content] }
  | .plain content =>
    let d := d.closeBullets.closeQuotation
    { d with paragraph := d.paragraph ++ [content] }

end Draft

/-- The classified lines of a text. -/
def proseLines (source : Text) : List ProseLine :=
  source.lines.map fun line => ProseLine.classify line.trim

/-- Prose as markup. -/
def proseMarkup (source : Text) : List Markup :=
  ((proseLines source).foldl Draft.feed {}).close.written

end BlockDocument.Html
