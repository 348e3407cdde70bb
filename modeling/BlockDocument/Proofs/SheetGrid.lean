import Mathlib.Order.Bounds.Defs
import BlockDocument.Proofs.Notices

/-!
# Sheets as they are written

The keys of a sheet name cells here and there. What is written is dense: a row for each row up to
the last one that a key names, and in it a cell for each column up to the last one, both cut at the
limits. Whether there is a note about the cut is decided by the extents, which comes to whether a
cell is lost (`sheet_isDense`).
-/

namespace BlockDocument

/-- What a cell of a sheet holds: the value under the greatest of its keys in the order of bytes,
and nothing if it has no key. -/
inductive Sheet.Holds (s : Sheet) (cell : Cell) : Text → Prop
  | value {key : Text} {value : Scalar} (mem : (key, value) ∈ s.data.entries)
      (named : Cell.ofKey? key = some cell)
      (greatest : ∀ other ∈ s.data.keys, Cell.ofKey? other = some cell →
        other = key ∨ other.utf8 < key.utf8) : s.Holds cell value.display
  | nothing (unnamed : cell ∉ s.cells) : s.Holds cell []

/-- Whether a notice says that a sheet was cut down. -/
def Notice.isTruncation : Notice → Bool
  | sheetTruncated .. => true
  | unknownBlock _ | skippedContent _ | malformedCellKey .. => false

namespace Html

/-! ## Elements as they are written -/

/-- What is written in the elements of the given name, none of which stands in another. -/
def elementTexts? (name html : Text) : Option (List Text) :=
  (Lexeme.readAll html).map fun lexemes =>
    (Lexeme.contents name lexemes).map (·.flatMap Lexeme.source)

section elementTexts

variable {tag : Tag} {before content after : List Markup}

theorem elementTexts?_writeAll (name : Text) (ms : List Markup) :
    elementTexts? name (Markup.writeAll ms)
      = some ((Lexeme.contents name (ms.flatMap Lexeme.ofMarkup)).map
          (·.flatMap Lexeme.source)) := by
  unfold elementTexts?
  rw [Lexeme.readAll_writeAll]
  rfl

theorem elementTexts?_of_lacks {name : Text} {ms : List Markup} (h : Lexeme.Lacks name ms) :
    elementTexts? name (Markup.writeAll ms) = some [] := by
  rw [elementTexts?_writeAll, Lexeme.contents_eq_nil h]
  rfl

/-- An element that is the only one of its name is found with what is written in it. -/
theorem elementTexts?_element (attributes : List Attribute)
    (hb : Lexeme.Lacks tag.name before) (hc : Lexeme.Lacks tag.name content)
    (ha : Lexeme.Lacks tag.name after) :
    elementTexts? tag.name (Markup.writeAll (before ++ (element tag attributes content ++ after)))
      = some [Markup.writeAll content] := by
  have hsource := Lexeme.flatMap_source_of_readAll (Lexeme.readAll_writeAll content)
  rw [elementTexts?_writeAll, List.flatMap_append, Lexeme.contents_append hb, List.flatMap_append,
    Lexeme.contents_ofMarkup hc, Lexeme.contents_eq_nil ha, List.map_singleton, hsource]

end elementTexts

/-! ## What a sheet is written as -/

/-- Rows and columns of cells as they are written. -/
def gridText (size : Cell) (text : Cell → Text) : Text :=
  (List.range size.row).flatMap fun row =>
    "<tr>".toList ++ (List.range size.column).flatMap (fun column =>
      "<td>".toList ++ escape (text ⟨row + 1, column + 1⟩) ++ "</td>".toList) ++ "</tr>".toList

/-- The one row of a sheet without a cell, which is as wide as the given number of columns. -/
def placeholderText (columns : Nat) : Text :=
  "<tr><td colspan=\"".toList ++ Text.ofNat (max columns 1)
    ++ "\" class=\"osf-sheet-empty\">No data</td></tr>".toList

/-- The note that a sheet of the first size is shown up to the second one. -/
def noteText (size shown : Cell) : Text :=
  "<tr><td colspan=\"".toList ++ Text.ofNat shown.column ++ "\" class=\"osf-sheet-note\">".toList
    ++ "Showing ".toList ++ Text.ofNat shown.row ++ " of ".toList ++ Text.ofNat size.row
    ++ " rows and ".toList ++ Text.ofNat shown.column ++ " of ".toList ++ Text.ofNat size.column
    ++ " columns</td></tr>".toList

/-- That a sheet is rendered to a dense grid, or to a placeholder if no key of it names a cell, with
a note and a notice if a cell of it is not shown. -/
structure IsDense (limits : SheetLimits) (sheet : Sheet) (r : Rendering) : Prop where
  rows : sheet.cells ≠ [] → IsGreatest {n | n ∈ sheet.cells.map Cell.row} sheet.extent.row
  columns : sheet.cells ≠ [] → IsGreatest {n | n ∈ sheet.cells.map Cell.column} sheet.extent.column
  body : ∃ text, (∀ cell, sheet.Holds cell (text cell))
    ∧ elementTexts? "tbody".toList (Markup.writeAll r.markup)
      = some [if sheet.cells = [] then placeholderText sheet.columns.length
          else gridText (sheet.shown limits) text]
  foot : elementTexts? "tfoot".toList (Markup.writeAll r.markup)
    = some (if sheet.cells.any (sheet.cutsOff limits) then
        [noteText sheet.extent (sheet.shown limits)] else [])
  notices : r.notices.filter Notice.isTruncation
    = if sheet.cells.any (sheet.cutsOff limits) then
        [.sheetTruncated sheet.name sheet.extent.row sheet.extent.column (sheet.shown limits).row
          (sheet.shown limits).column]
      else []

/-! ## Extents -/

theorem mem_cells {sheet : Sheet} {cell : Cell} :
    cell ∈ sheet.cells ↔ ∃ e ∈ sheet.data.entries, Cell.ofKey? e.1 = some cell := by
  simp [Sheet.cells, Dictionary.keys]

theorem isGreatest_foldl_max {xs : List Nat} (hne : xs ≠ []) (hone : ∀ x ∈ xs, 1 ≤ x) :
    IsGreatest {x | x ∈ xs} (xs.foldl max 1) := by
  obtain ⟨largest, hl⟩ := Option.ne_none_iff_exists'.1 (mt List.max?_eq_none_iff.1 hne)
  obtain ⟨hmem, hle⟩ := List.max?_eq_some_iff.1 hl
  have hfold : xs.foldl max 1 = largest := by
    rw [List.foldl_max, hl]
    exact Nat.max_eq_right (hone largest hmem)
  rw [hfold]
  exact ⟨hmem, hle⟩

theorem isGreatest_extent {sheet : Sheet} (h : sheet.cells ≠ []) :
    IsGreatest {n | n ∈ sheet.cells.map Cell.row} sheet.extent.row
      ∧ IsGreatest {n | n ∈ sheet.cells.map Cell.column} sheet.extent.column := by
  have hone : ∀ cell ∈ sheet.cells, 1 ≤ cell.row ∧ 1 ≤ cell.column := by
    intro cell hc
    obtain ⟨e, -, he⟩ := mem_cells.1 hc
    exact one_le_of_ofKey? he
  constructor
  · refine isGreatest_foldl_max (by simpa using h) fun n hn => ?_
    obtain ⟨cell, hc, rfl⟩ := List.mem_map.1 hn
    exact (hone cell hc).1
  · refine isGreatest_foldl_max (by simpa using h) fun n hn => ?_
    obtain ⟨cell, hc, rfl⟩ := List.mem_map.1 hn
    exact (hone cell hc).2

/-! ## Cells -/

theorem holds_textAt (sheet : Sheet) (cell : Cell) :
    sheet.Holds cell ((sheetGrid sheet).textAt cell) := by
  unfold Grid.textAt
  rw [value?_sheetGrid]
  by_cases hcell : cell ∈ sheet.cells
  · obtain ⟨e, he, hk⟩ := mem_cells.1 hcell
    obtain ⟨last, hlast, hcounting, hnamed, hgreatest⟩ :=
      Grid.counting?_of_mem sheet.data.ascending he hk
    rw [hcounting]
    refine .value hlast hnamed fun other ho hk => ?_
    obtain ⟨e, he, rfl⟩ := List.mem_map.1 ho
    rcases hgreatest e he hk with rfl | hlt
    · exact .inl rfl
    · exact .inr (Text.utf8_lt_utf8 hlt)
  · have hnone : Grid.counting? sheet.data.entries cell = none := by
      unfold Grid.counting?
      rw [List.getLast?_eq_none_iff, List.filter_eq_nil_iff]
      intro e he hk
      exact hcell (mem_cells.2 ⟨e, he, by simpa using hk⟩)
    rw [hnone]
    exact .nothing hcell

theorem writeAll_body (g : Grid) (size : Cell) :
    Markup.writeAll (g.body size.row size.column) = gridText size g.textAt := by
  have hcell : ∀ t : Text, Markup.writeAll (textElement .td [] t)
      = "<td>".toList ++ escape t ++ "</td>".toList :=
    fun t => (writeAll_textElement .td [] t).trans (List.append_assoc ..).symm
  have hrow : ∀ content, Markup.writeAll (element .tr [] content)
      = "<tr>".toList ++ Markup.writeAll content ++ "</tr>".toList :=
    fun content => (writeAll_element .tr [] content).trans (List.append_assoc ..).symm
  unfold Grid.body gridText
  rw [writeAll_flatMap]
  simp only [hrow, writeAll_flatMap, hcell]
  rfl

theorem write_wideCell (span : Nat) {className : Text} (hn : escape className = className) :
    (Markup.opening .td [.colspan span, .className className]).write
      = "<td colspan=\"".toList ++ Text.ofNat span ++ "\" class=\"".toList ++ className
        ++ "\">".toList := by
  have hopen : '<' :: Tag.td.name ++ ' ' :: "colspan".toList ++ "=\"".toList
      = "<td colspan=\"".toList := by decide
  have hmiddle : "\"".toList ++ (' ' :: "class".toList ++ "=\"".toList)
      = "\" class=\"".toList := by decide
  show '<' :: Tag.td.name
    ++ ((' ' :: "colspan".toList ++ "=\"".toList ++ escape (Text.ofNat span) ++ "\"".toList)
      ++ ((' ' :: "class".toList ++ "=\"".toList ++ escape className ++ "\"".toList) ++ []))
    ++ ">".toList = _
  rw [escape_ofNat, hn, ← hopen, ← hmiddle]
  simp only [List.append_assoc, List.cons_append, List.nil_append]
  rfl

/-- A row of one cell that spans columns. -/
theorem writeAll_wideRow (span : Nat) {className content : Text} (hn : escape className = className)
    (hc : escape content = content) :
    Markup.writeAll (element .tr [] (textElement .td [.colspan span, .className className] content))
      = "<tr><td colspan=\"".toList ++ Text.ofNat span ++ "\" class=\"".toList ++ className
        ++ "\">".toList ++ content ++ "</td></tr>".toList := by
  have hopen : (Markup.opening .tr []).write ++ "<td colspan=\"".toList
      = "<tr><td colspan=\"".toList := by decide
  have hclose : (Markup.closing .td).write ++ (Markup.closing .tr).write
      = "</td></tr>".toList := by decide
  rw [writeAll_element, writeAll_textElement, write_wideCell span hn, hc, ← hopen, ← hclose]
  simp only [List.append_assoc]

theorem writeAll_placeholder (columns : Nat) :
    Markup.writeAll (element .tr [] (textElement .td
        [.colspan (max columns 1), .className "osf-sheet-empty".toList] "No data".toList))
      = placeholderText columns := by
  have hn : escape "osf-sheet-empty".toList = "osf-sheet-empty".toList := by decide
  have hc : escape "No data".toList = "No data".toList := by decide
  have hend : "\" class=\"".toList ++ ("osf-sheet-empty".toList ++ ("\">".toList
      ++ ("No data".toList ++ "</td></tr>".toList)))
        = "\" class=\"osf-sheet-empty\">No data</td></tr>".toList := by decide
  delta placeholderText
  rw [writeAll_wideRow _ hn hc, ← hend]
  simp only [List.append_assoc]

theorem escape_truncationNote (rows columns shownRows shownColumns : Nat) :
    escape (truncationNote rows columns shownRows shownColumns)
      = truncationNote rows columns shownRows shownColumns := by
  have hwords : ∀ t ∈ ["Showing ", " of ", " rows and ", " columns"],
      escape t.toList = t.toList := by decide
  simp only [List.forall_mem_cons] at hwords
  obtain ⟨hshowing, hof, hrows, hcolumns, -⟩ := hwords
  delta truncationNote
  simp only [escape_append, escape_ofNat, hshowing, hof, hrows, hcolumns]

theorem writeAll_note (size shown : Cell) :
    Markup.writeAll (element .tr [] (textElement .td
        [.colspan shown.column, .className "osf-sheet-note".toList]
        (truncationNote size.row size.column shown.row shown.column)))
      = noteText size shown := by
  have hn : escape "osf-sheet-note".toList = "osf-sheet-note".toList := by decide
  have hmiddle : "\" class=\"".toList ++ ("osf-sheet-note".toList ++ "\">".toList)
      = "\" class=\"osf-sheet-note\">".toList := by decide
  have hend : " columns".toList ++ "</td></tr>".toList = " columns</td></tr>".toList := by decide
  delta noteText
  rw [writeAll_wideRow _ hn (escape_truncationNote ..), ← hmiddle, ← hend]
  delta truncationNote
  simp only [List.append_assoc]

/-! ## The whole sheet -/

variable (limits : SheetLimits) (sheet : Sheet)

theorem shown_eq : (sheetGrid sheet).shownRows limits = (sheet.shown limits).row
    ∧ (sheetGrid sheet).shownColumns limits = (sheet.shown limits).column := by
  unfold Grid.shownRows Grid.shownColumns
  rw [rows_sheetGrid, columns_sheetGrid]
  exact ⟨rfl, rfl⟩

theorem elementTexts?_tbody :
    elementTexts? Tag.tbody.name (Markup.writeAll (sheetRendering limits sheet).markup)
      = some [if sheet.cells = [] then placeholderText sheet.columns.length
          else gridText (sheet.shown limits) (sheetGrid sheet).textAt] := by
  have hstart : Lexeme.Lacks Tag.tbody.name (sheetStart sheet) :=
    lacks_sheetStart sheet (by decide)
  have hstop : Lexeme.Lacks Tag.tbody.name sheetStop := lacks_sheetStop (by decide)
  by_cases h : sheet.cells = []
  · have hrow : Lexeme.Lacks Tag.tbody.name (element .tr [] (textElement .td
        [.colspan (max sheet.columns.length 1), .className "osf-sheet-empty".toList]
        "No data".toList)) := by
      rw [Lexeme.lacks_element, Lexeme.lacks_textElement]
      decide
    rw [sheetRendering_empty limits ((cells_sheetGrid_eq_nil_iff sheet).2 h), if_pos h]
    refine (elementTexts?_element [] hstart hrow hstop).trans ?_
    rw [writeAll_placeholder]
  · have hbody : Lexeme.Lacks Tag.tbody.name ((sheetGrid sheet).body
        ((sheetGrid sheet).shownRows limits) ((sheetGrid sheet).shownColumns limits)) :=
      (sheetGrid sheet).lacks_body (by decide) (by decide) _ _
    have hafter : Lexeme.Lacks Tag.tbody.name ((sheetGrid sheet).foot limits ++ sheetStop) :=
      Lexeme.lacks_append.2 ⟨lacks_foot limits _, hstop⟩
    rw [sheetRendering_eq limits (mt (cells_sheetGrid_eq_nil_iff sheet).1 h), if_neg h,
      elementTexts?_element [] hstart hbody hafter, (shown_eq limits sheet).1,
      (shown_eq limits sheet).2, writeAll_body]

theorem foot_sheetGrid : (sheetGrid sheet).foot limits
    = if sheet.cells.any (sheet.cutsOff limits) then
        element .tfoot [] (element .tr [] (textElement .td
          [.colspan (sheet.shown limits).column, .className "osf-sheet-note".toList]
          (truncationNote sheet.extent.row sheet.extent.column (sheet.shown limits).row
            (sheet.shown limits).column)))
      else [] := by
  obtain ⟨hrows, hcolumns⟩ := shown_eq limits sheet
  rw [Grid.foot, rows_sheetGrid, columns_sheetGrid, hrows, hcolumns]
  exact if_congr (any_cutsOff_iff limits sheet).symm rfl rfl

theorem elementTexts?_tfoot :
    elementTexts? Tag.tfoot.name (Markup.writeAll (sheetRendering limits sheet).markup)
      = some (if sheet.cells.any (sheet.cutsOff limits) then
          [noteText sheet.extent (sheet.shown limits)] else []) := by
  have hstart : Lexeme.Lacks Tag.tfoot.name (sheetStart sheet) :=
    lacks_sheetStart sheet (by decide)
  have hstop : Lexeme.Lacks Tag.tfoot.name sheetStop := lacks_sheetStop (by decide)
  by_cases h : sheet.cells = []
  · have hbody : Lexeme.Lacks Tag.tfoot.name (emptyBody sheet.columns.length) := by
      rw [emptyBody, Lexeme.lacks_element, Lexeme.lacks_element, Lexeme.lacks_textElement]
      decide
    have hnone : ¬ sheet.cells.any (sheet.cutsOff limits) = true := by simp [h]
    rw [sheetRendering_empty limits ((cells_sheetGrid_eq_nil_iff sheet).2 h), if_neg hnone]
    exact elementTexts?_of_lacks
      (Lexeme.lacks_append.2 ⟨hstart, Lexeme.lacks_append.2 ⟨hbody, hstop⟩⟩)
  · have hbody : Lexeme.Lacks Tag.tfoot.name (element .tbody [] ((sheetGrid sheet).body
        ((sheetGrid sheet).shownRows limits) ((sheetGrid sheet).shownColumns limits))) :=
      Lexeme.lacks_element.2 ⟨by decide, (sheetGrid sheet).lacks_body (by decide) (by decide) _ _⟩
    have hbefore := Lexeme.lacks_append.2 ⟨hstart, hbody⟩
    rw [sheetRendering_eq limits (mt (cells_sheetGrid_eq_nil_iff sheet).1 h), ← List.append_assoc,
      foot_sheetGrid]
    split
    · have hrow : Lexeme.Lacks Tag.tfoot.name (element .tr [] (textElement .td
          [.colspan (sheet.shown limits).column, .className "osf-sheet-note".toList]
          (truncationNote sheet.extent.row sheet.extent.column (sheet.shown limits).row
            (sheet.shown limits).column))) := by
        rw [Lexeme.lacks_element, Lexeme.lacks_textElement]
        decide
      rw [elementTexts?_element [] hbefore hrow hstop, writeAll_note]
    · exact elementTexts?_of_lacks (Lexeme.lacks_append.2 ⟨hbefore, hstop⟩)

theorem filter_isTruncation :
    (sheetRendering limits sheet).notices.filter Notice.isTruncation
      = if sheet.cells.any (sheet.cutsOff limits) then
          [.sheetTruncated sheet.name sheet.extent.row sheet.extent.column (sheet.shown limits).row
            (sheet.shown limits).column]
        else [] := by
  have hmalformed : (sheet.malformedKeys.map (.malformedCellKey sheet.name)).filter
      Notice.isTruncation = [] := by
    simp [Notice.isTruncation]
  rw [notices_sheetRendering, Sheet.notices, List.filter_append, hmalformed, List.nil_append]
  split <;> rfl

/-- A sheet is written as a dense grid of the values under its greatest keys, as large as its last
row and column and the limits allow, with a note and a notice exactly if a cell is lost. -/
theorem sheet_isDense : IsDense limits sheet (sheetRendering limits sheet) where
  rows h := (isGreatest_extent h).1
  columns h := (isGreatest_extent h).2
  body := ⟨(sheetGrid sheet).textAt, holds_textAt sheet, elementTexts?_tbody limits sheet⟩
  foot := elementTexts?_tfoot limits sheet
  notices := filter_isTruncation limits sheet

end Html

end BlockDocument
