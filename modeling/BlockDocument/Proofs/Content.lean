import BlockDocument.Html.Block
import BlockDocument.Proofs.Flow

/-!
# Rendered content is flow

Text of the document enters rendered content only as text and as values of attributes, whatever it
is, and inline marks add tags in pairs that need not be nested. So every renderer gives flow, one
lemma for each, and blocks are read back as safe lexemes with a nested outline.
-/

namespace BlockDocument.Html

namespace Flow

theorem textElement {tag : Tag} {attributes : List Attribute}
    (hf : tag.allows attributes = true) (content : Text) :
    Flow (Html.textElement tag attributes content) :=
  .element hf (.text content)

theorem optionalElement {tag : Tag} {attributes : List Attribute}
    (hf : tag.allows attributes = true) (content : Option Text) :
    Flow (Html.optionalElement tag attributes content) := by
  cases content with
  | none => exact .nil
  | some content => exact .textElement hf content

theorem ite {p : Prop} [Decidable p] {ms ns : List Markup} (hm : Flow ms) (hn : Flow ns) :
    Flow (if p then ms else ns) := by
  split
  · exact hm
  · exact hn

/-! ## Inline content -/

theorem mem_markTags (mark : Mark) : mark.tag ∈ [Tag.strong, .em, .code] := by
  cases mark <;> decide

theorem inlineTokens : ∀ ts : List Inline.Token, Flow (ts.map Inline.Token.markup)
  | [] => .nil
  | .char _ :: ts => .loose trivial (inlineTokens ts)
  | .opening mark :: ts => .loose ⟨mem_markTags mark, rfl⟩ (inlineTokens ts)
  | .closing mark :: ts => .loose (mem_markTags mark) (inlineTokens ts)

theorem inlineMarkup (t : Text) : Flow (Html.inlineMarkup t) := inlineTokens _

theorem styledMarkup (style : Style) {content : List Markup} (h : Flow content) :
    Flow (Html.styledMarkup style content) := by
  have hb : Flow (wrapIf style.bold .strong [] content) := .ite (.element rfl h) h
  have hi : Flow (wrapIf style.italic .em [] _) := .ite (.element rfl hb) hb
  have hu : Flow (wrapIf style.underline .span [.style "text-decoration: underline".toList] _) :=
    .ite (.element rfl hi) hi
  exact .ite (.element rfl hu) hu

theorem runMarkup (r : Run) : Flow (Html.runMarkup r) := by
  cases r with
  | plain content => exact .text content
  | styled content style => exact .styledMarkup style (.text content)
  | link content url =>
    exact .textElement rfl content
  | image url alternative => exact .loose trivial .nil

theorem runsMarkup (runs : List Run) : Flow (Html.runsMarkup runs) :=
  .flatMap fun r _ => runMarkup r

theorem headingMarkup (level : HeadingLevel) (content : Text) :
    Flow (Html.headingMarkup level content) := by
  cases level with
  | one => exact .element rfl (.inlineMarkup content)
  | two => exact .element rfl (.inlineMarkup content)
  | three => exact .element rfl (.inlineMarkup content)

/-! ## Prose -/

theorem paragraphMarkup (lines : List Text) : Flow (Html.paragraphMarkup lines) :=
  .element rfl (.inlineMarkup _)

theorem bulletMarkup (items : List Text) : Flow (Html.bulletMarkup items) :=
  .element rfl (.flatMap fun item _ => .element rfl (.inlineMarkup item))

theorem quotationMarkup (lines : List Text) : Flow (Html.quotationMarkup lines) :=
  .element rfl (.flatMap fun line _ => .element rfl (.inlineMarkup line))

section Draft

variable {d : Draft}

theorem closeParagraph (h : Flow d.written) : Flow d.closeParagraph.written := by
  unfold Draft.closeParagraph
  split
  · exact h
  · exact h.append (.paragraphMarkup d.paragraph)

theorem closeBullets (h : Flow d.written) : Flow d.closeBullets.written := by
  unfold Draft.closeBullets
  split
  · exact h
  · exact h.append (.bulletMarkup d.bullets)

theorem closeQuotation (h : Flow d.written) : Flow d.closeQuotation.written := by
  unfold Draft.closeQuotation
  split
  · exact h
  · exact h.append (.quotationMarkup d.quotation)

theorem close (h : Flow d.written) : Flow d.close.written :=
  closeQuotation (closeBullets (closeParagraph h))

theorem feed (h : Flow d.written) (line : ProseLine) : Flow (d.feed line).written := by
  cases line with
  | blank => exact close h
  | heading level content => exact (close h).append (.headingMarkup level content)
  | bullet content => exact closeQuotation (closeParagraph h)
  | quoted content => exact closeBullets (closeParagraph h)
  | plain content => exact closeQuotation (closeBullets h)

theorem foldl_feed : ∀ (lines : List ProseLine) {d : Draft}, Flow d.written →
    Flow (lines.foldl Draft.feed d).written
  | [], _, h => h
  | line :: lines, _, h => foldl_feed lines (feed h line)

end Draft

theorem proseMarkup (source : Text) : Flow (Html.proseMarkup source) :=
  close (foldl_feed _ .nil)

/-! ## Blocks -/

theorem each {α : Type} {render : α → Rendering} (h : ∀ a, Flow (render a).markup) :
    ∀ as : List α, Flow (Rendering.each render as).markup
  | [] => .nil
  | a :: as => (h a).append (each h as)

theorem paragraphOrHeading (runs : List Run) : Flow (Html.paragraphOrHeading runs) := by
  unfold Html.paragraphOrHeading
  split
  · exact .headingMarkup _ _
  · exact .element rfl (.runsMarkup runs)

theorem contentRendering (slide : Text) (content : SlideContent) :
    Flow (Html.contentRendering slide content).markup := by
  cases content with
  | paragraph runs => exact .paragraphOrHeading runs
  | unorderedList items | orderedList items =>
    exact .element rfl (.flatMap fun item _ => .element rfl (.runsMarkup item))
  | quotation paragraphs =>
    exact .element rfl (.flatMap fun paragraph _ => .element rfl (.runsMarkup paragraph))
  | code content => exact .element rfl (.textElement rfl content)
  | image url alternative => exact .loose trivial .nil
  | unsupported => exact .nil

theorem slideBody (slide : Slide) : Flow (Html.slideBody slide).markup := by
  unfold Html.slideBody
  split
  · exact each (.contentRendering slide.title) slide.content
  · split
    · exact .element rfl (.flatMap fun bullet _ => .element rfl (.inlineMarkup bullet))
    · exact .nil

theorem slideRendering (slide : Slide) : Flow (Html.slideRendering slide).markup :=
  .element rfl (append (.textElement rfl slide.title)
    (.element rfl (.slideBody slide)))

theorem sheetHead (columns : List Text) : Flow (Html.sheetHead columns) := by
  unfold Html.sheetHead
  split
  · exact .nil
  · exact .element rfl (.element rfl (.flatMap fun name _ => .textElement rfl name))

theorem gridBody (g : Grid) (rows columns : Nat) : Flow (g.body rows columns) :=
  .flatMap fun _ _ => .element rfl (.flatMap fun _ _ => .textElement rfl _)

theorem gridRendering (limits : SheetLimits) (sheet : Text) (g : Grid) :
    Flow (Html.gridRendering limits sheet g).markup := by
  unfold Html.gridRendering
  simp only
  split
  · exact append (.element rfl (.gridBody g _ _))
      (.element rfl (.element rfl (.textElement rfl _)))
  · exact .element rfl (.gridBody g _ _)

theorem emptyBody (columns : Nat) : Flow (Html.emptyBody columns) :=
  .element rfl (.element rfl (.textElement rfl _))

theorem sheetRendering (limits : SheetLimits) (sheet : Sheet) :
    Flow (Html.sheetRendering limits sheet).markup := by
  refine .element rfl (append (.textElement rfl sheet.name)
    (.element rfl (append (.sheetHead sheet.columns) ?_)))
  split
  · exact .emptyBody _
  · exact .gridRendering limits sheet.name _

theorem tableCells (table : Table) {tag : Tag} (ht : tag ∈ [Tag.th, .td]) :
    ∀ (column : Nat) (cells : List Text), Flow (Html.tableCells table tag column cells)
  | _, [] => .nil
  | column, cell :: cells => by
    have hf : ∀ style, tag.allows [.style style] = true := by
      simp only [List.mem_cons, List.not_mem_nil, or_false] at ht
      rcases ht with rfl | rfl
      · exact fun _ => rfl
      · exact fun _ => rfl
    exact append (.textElement (hf _) cell) (tableCells table ht (column + 1) cells)

theorem tableHead (table : Table) : Flow (Html.tableHead table) := by
  unfold Html.tableHead
  split
  · exact .nil
  · exact .element rfl (.element rfl (.tableCells table (by decide) 0 table.headers))

theorem tableMarkup (table : Table) : Flow (Html.tableMarkup table) :=
  .element rfl (append (append (.optionalElement rfl table.caption) (.tableHead table))
    (.element rfl (.flatMap fun row _ => .element rfl (.tableCells table (by decide) 0 row))))

theorem chartMarkup (chart : Chart) : Flow (Html.chartMarkup chart) :=
  .element rfl (append (append (.textElement rfl chart.title) (.textElement rfl _))
    (.textElement rfl _))

theorem diagramMarkup (diagram : Diagram) : Flow (Html.diagramMarkup diagram) :=
  .element rfl (append (append (.optionalElement rfl diagram.title)
    (.optionalElement rfl diagram.engine)) (.textElement rfl diagram.code))

theorem listingMarkup (listing : Listing) : Flow (Html.listingMarkup listing) := by
  refine .element rfl (append (.optionalElement rfl listing.caption)
    (.element rfl ?_))
  split
  · exact .textElement rfl listing.code
  · exact .textElement rfl listing.code

theorem unknownRendering (kind : Text) : Flow (Html.unknownRendering kind).markup :=
  .element rfl (.element rfl (.loose trivial (.textElement rfl kind)))

theorem blockRendering (limits : SheetLimits) (block : Block) :
    Flow (Html.blockRendering limits block).markup := by
  cases block with
  | properties block => exact .nil
  | doc block => exact .element rfl (.proseMarkup block.content)
  | slide block => exact .slideRendering block
  | sheet block => exact .sheetRendering limits block
  | table block => exact .tableMarkup block
  | chart block => exact .chartMarkup block
  | diagram block => exact .diagramMarkup block
  | code block => exact .listingMarkup block
  | unknown block => exact .unknownRendering block.kind

theorem blocksRendering (limits : SheetLimits) (blocks : List Block) :
    Flow (Html.blocksRendering limits blocks).markup :=
  each (.blockRendering limits) blocks

end Flow

/-- Whatever blocks say, the text that they are rendered to is read from the left as lexemes that
make up the text, are all safe, and have nested tags once those of inline marks and images are left
out. -/
theorem blocks_safe_and_nested (limits : SheetLimits) (blocks : List Block) :
    ∃ lexemes,
      Lexeme.readAll (Markup.writeAll (blocksRendering limits blocks).markup) = some lexemes
        ∧ lexemes.flatMap Lexeme.source = Markup.writeAll (blocksRendering limits blocks).markup
        ∧ (∀ l ∈ lexemes, l.Safe) ∧ Lexeme.nests [] (Lexeme.outline lexemes) = true := by
  have h := Flow.blocksRendering limits blocks
  have hread := Lexeme.readAll_writeAll (blocksRendering limits blocks).markup
  refine ⟨_, hread, Lexeme.flatMap_source_of_readAll hread, h.safe, ?_⟩
  have hn := h.nests [] []
  rw [List.append_nil] at hn
  exact hn

end BlockDocument.Html
