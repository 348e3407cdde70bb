import BlockDocument.Html.Sheet
import BlockDocument.Proofs.Lexeme

/-!
# What becomes of the cells of a sheet

A written sheet is read back as a reader of the page sees it: the rows are what stands between
the `tr` tags of its `tbody`, and the cells of a row what stands between its `td` tags.

An entry of the sheet is accounted for if the cell that its key names shows its value, if its key
is reported as malformed, or if the cell lies beyond the part of the grid that is shown and the
cut is reported. What is not accounted for is an entry whose cell another key names too, as `1,1`
does beside `01,1`: only the value under the greatest of the keys is shown, and no notice says so.
-/

namespace BlockDocument.Html

namespace Lexeme

/-! ## Reading elements -/

/-- What stands in the elements of the given name, none of which stands in another. -/
def contents (name : Text) : List Lexeme → List (List Lexeme)
  | [] => []
  | .opening n _ :: rest =>
    if n = name then rest.takeWhile (· ≠ .closing name) :: contents name rest
    else contents name rest
  | _ :: rest => contents name rest

/-- Whether no tag is of the given name. -/
def Without (name : Text) (lexemes : List Lexeme) : Prop :=
  ∀ l ∈ lexemes, l.name? ≠ some name

theorem contents_append {name : Text} {rest : List Lexeme} : ∀ {lexemes : List Lexeme},
    Without name lexemes → contents name (lexemes ++ rest) = contents name rest
  | [], _ => rfl
  | l :: lexemes, h => by
    have hl := h l (by simp)
    have ih : contents name (lexemes ++ rest) = contents name rest :=
      contents_append fun m hm => h m (by simp [hm])
    cases l with
    | opening n attributes =>
      have hn : n ≠ name := fun hn => hl (congrArg some hn)
      rw [List.cons_append, contents, if_neg hn, ih]
    | char | entity | closing | void => exact ih

theorem contents_eq_nil {name : Text} {lexemes : List Lexeme} (h : Without name lexemes) :
    contents name lexemes = [] := by
  have hc : contents name (lexemes ++ []) = [] := contents_append h
  rwa [List.append_nil] at hc

theorem contents_element {name : Text} {attributes : List (Text × Text)}
    {content rest : List Lexeme} (h : Without name content) :
    contents name (.opening name attributes :: (content ++ .closing name :: rest))
      = content :: contents name rest := by
  have hc : ∀ l ∈ content, decide (l ≠ .closing name) = true := by
    intro l hl
    refine decide_eq_true fun he => h l hl ?_
    rw [he]
    rfl
  rw [contents, if_pos rfl, contents_append h, List.takeWhile_append_of_pos hc,
    List.takeWhile_cons_of_neg (by simp), List.append_nil]
  rfl

end Lexeme

namespace Lexeme

theorem ofMarkup_element (tag : Tag) (attributes : List Attribute) (content : List Markup) :
    (element tag attributes content).flatMap ofMarkup
      = .opening tag.name (attributes.map ofAttribute)
        :: (content.flatMap ofMarkup ++ [.closing tag.name]) := by
  unfold element
  rw [List.flatMap_append, List.flatMap_cons]
  rfl

/-- Whether markup has no tag of the given name. -/
def Lacks (name : Text) (ms : List Markup) : Prop := Without name (ms.flatMap ofMarkup)

variable {name : Text}

@[simp]
theorem lacks_nil : Lacks name [] := fun _ hl => absurd hl List.not_mem_nil

@[simp]
theorem lacks_append {ms ns : List Markup} :
    Lacks name (ms ++ ns) ↔ Lacks name ms ∧ Lacks name ns := by
  unfold Lacks Without
  rw [List.flatMap_append, List.forall_mem_append]

theorem lacks_cons {m : Markup} {ms : List Markup} :
    Lacks name (m :: ms) ↔ Without name (ofMarkup m) ∧ Lacks name ms := by
  unfold Lacks Without
  rw [List.flatMap_cons, List.forall_mem_append]

@[simp]
theorem lacks_opening {tag : Tag} {attributes : List Attribute} {ms : List Markup} :
    Lacks name (.opening tag attributes :: ms) ↔ tag.name ≠ name ∧ Lacks name ms := by
  rw [lacks_cons]
  simp [Without, ofMarkup, name?]

@[simp]
theorem lacks_closing {tag : Tag} {ms : List Markup} :
    Lacks name (.closing tag :: ms) ↔ tag.name ≠ name ∧ Lacks name ms := by
  rw [lacks_cons]
  simp [Without, ofMarkup, name?]

@[simp]
theorem lacks_text {content : Text} {ms : List Markup} :
    Lacks name (.text content :: ms) ↔ Lacks name ms := by
  rw [lacks_cons]
  refine and_iff_right fun l hl => ?_
  obtain ⟨c, -, rfl⟩ := List.mem_map.1 hl
  rcases ofChar_cases c with ⟨n, -, hc, -⟩ | ⟨-, hc, -⟩ <;> simp [hc, name?]

@[simp]
theorem lacks_element {tag : Tag} {attributes : List Attribute} {content : List Markup} :
    Lacks name (element tag attributes content) ↔ tag.name ≠ name ∧ Lacks name content := by
  unfold element
  rw [List.cons_append, lacks_opening, lacks_append, lacks_closing]
  exact ⟨fun h => ⟨h.1, h.2.1⟩, fun h => ⟨h.1, h.2, h.1, lacks_nil⟩⟩

@[simp]
theorem lacks_textElement {tag : Tag} {attributes : List Attribute} {content : Text} :
    Lacks name (textElement tag attributes content) ↔ tag.name ≠ name := by
  unfold textElement
  rw [lacks_element, lacks_text]
  exact and_iff_left lacks_nil

theorem lacks_flatMap {α : Type} {f : α → List Markup} {xs : List α}
    (h : ∀ x ∈ xs, Lacks name (f x)) : Lacks name (xs.flatMap f) := by
  intro l hl
  obtain ⟨m, hm, hl⟩ := List.mem_flatMap.1 hl
  obtain ⟨x, hx, hm⟩ := List.mem_flatMap.1 hm
  exact h x hx l (List.mem_flatMap.2 ⟨m, hm, hl⟩)

theorem contents_ofMarkup {tag : Tag} {attributes : List Attribute} {content : List Markup}
    (h : Lacks tag.name content) (rest : List Lexeme) :
    contents tag.name ((element tag attributes content).flatMap ofMarkup ++ rest)
      = content.flatMap ofMarkup :: contents tag.name rest := by
  rw [ofMarkup_element, List.cons_append, List.append_assoc]
  exact contents_element h

/-- Elements of one name side by side are found one by one. -/
theorem contents_flatMap {α : Type} {tag : Tag} {attributes : List Attribute}
    {f : α → List Markup} : ∀ {xs : List α},
      (∀ x ∈ xs, Lacks tag.name (f x)) →
        contents tag.name ((xs.flatMap fun x => element tag attributes (f x)).flatMap ofMarkup)
          = xs.map fun x => (f x).flatMap ofMarkup
  | [], _ => rfl
  | x :: xs, h => by
    rw [List.flatMap_cons, List.flatMap_append, contents_ofMarkup (h x (by simp)),
      contents_flatMap fun y hy => h y (by simp [hy])]
    rfl

end Lexeme

/-! ## Laying out -/

namespace Grid

/-- Every cell that is filled lies in the rows and columns that are counted. -/
def Covers (g : Grid) : Prop :=
  ∀ placed ∈ g.cells, placed.1.row ≤ g.rows ∧ placed.1.column ≤ g.columns

theorem covers_place {g : Grid} (h : g.Covers) (cell : Cell) (value : Scalar) :
    (g.place cell value).Covers := by
  intro placed hp
  simp only [place, List.mem_cons] at hp ⊢
  rcases hp with rfl | hp
  · exact ⟨Nat.le_max_right _ _, Nat.le_max_right _ _⟩
  · obtain ⟨hr, hc⟩ := h placed hp
    exact ⟨Nat.le_trans hr (Nat.le_max_left _ _), Nat.le_trans hc (Nat.le_max_left _ _)⟩

theorem covers_layout (sheet : Text) : ∀ {g : Grid} {entries : List (Text × Scalar)},
    g.Covers → (layout sheet g entries).1.Covers
  | _, [], h => h
  | g, (key, value) :: entries, h => by
    simp only [layout]
    split
    · exact covers_layout sheet (covers_place h _ value)
    · exact covers_layout sheet h

theorem value?_place (g : Grid) (cell other : Cell) (value : Scalar) :
    (g.place cell value).value? other = if cell = other then some value else g.value? other := by
  unfold value? place
  rw [List.find?_cons]
  split <;> simp_all

/-- The entry that counts for a cell: the last one whose key names it. -/
def counting? (entries : List (Text × Scalar)) (cell : Cell) : Option (Text × Scalar) :=
  (entries.filter fun e => Cell.ofKey? e.1 = some cell).getLast?

theorem value?_layout (sheet : Text) (cell : Cell) : ∀ (g : Grid) (entries : List (Text × Scalar)),
    (layout sheet g entries).1.value? cell
      = ((counting? entries cell).map (·.2)).or (g.value? cell)
  | _, [] => rfl
  | g, (key, value) :: entries => by
    simp only [layout]
    split
    · rename_i named hk
      rw [value?_layout sheet cell, value?_place]
      unfold counting?
      by_cases hc : named = cell
      · rw [if_pos hc, List.filter_cons_of_pos (by simp [hk, hc]), List.getLast?_cons]
        cases (entries.filter fun e => Cell.ofKey? e.1 = some cell).getLast? <;> rfl
      · rw [if_neg hc, List.filter_cons_of_neg (by simp [hk, hc])]
    · rename_i hk
      rw [value?_layout sheet cell]
      unfold counting?
      rw [List.filter_cons_of_neg (by simp [hk])]

theorem layout_notices (sheet : Text) : ∀ (g : Grid) (entries : List (Text × Scalar)),
    (layout sheet g entries).2
      = (entries.filter fun e => (Cell.ofKey? e.1).isNone).map (.malformedCellKey sheet ·.1)
  | _, [] => rfl
  | g, (key, value) :: entries => by
    simp only [layout]
    split
    · rename_i named hk
      rw [layout_notices sheet _ entries, List.filter_cons_of_neg (by simp [hk])]
    · rename_i hk
      rw [layout_notices sheet g entries, List.filter_cons_of_pos (by simp [hk])]
      rfl

end Grid

namespace Grid

theorem malformed_mem_layout {sheet key : Text} {g : Grid} {entries : List (Text × Scalar)} :
    .malformedCellKey sheet key ∈ (layout sheet g entries).2
      ↔ ∃ e ∈ entries, e.1 = key ∧ Cell.ofKey? key = none := by
  rw [layout_notices]
  simp only [List.mem_map, List.mem_filter, Option.isNone_iff_eq_none,
    Notice.malformedCellKey.injEq, true_and]
  constructor
  · rintro ⟨e, ⟨he, hk⟩, rfl⟩
    exact ⟨e, he, rfl, hk⟩
  · rintro ⟨e, he, rfl, hk⟩
    exact ⟨e, ⟨he, hk⟩, rfl⟩

theorem truncated_not_mem_layout {sheet other : Text} {g : Grid} {entries : List (Text × Scalar)}
    {rows columns shownRows shownColumns : Nat} :
    .sheetTruncated other rows columns shownRows shownColumns ∉ (layout sheet g entries).2 := by
  rw [layout_notices]
  simp

theorem le_of_value? {g : Grid} {cell : Cell} {value : Scalar} (hg : g.Covers)
    (h : g.value? cell = some value) : cell.row ≤ g.rows ∧ cell.column ≤ g.columns := by
  obtain ⟨placed, hp, -⟩ := Option.map_eq_some_iff.1 h
  have hc := List.find?_some hp
  rw [← of_decide_eq_true hc]
  exact hg placed (List.mem_of_find?_eq_some hp)

theorem cells_ne_nil_of_value? {g : Grid} {cell : Cell} {value : Scalar}
    (h : g.value? cell = some value) : g.cells ≠ [] := by
  intro hn
  unfold value? at h
  rw [hn] at h
  cases h

theorem counting?_of_mem {entries : List (Text × Scalar)} {e : Text × Scalar} {cell : Cell}
    (ha : entries.Pairwise (fun a b => a.1 < b.1)) (he : e ∈ entries)
    (hc : Cell.ofKey? e.1 = some cell) :
    ∃ last ∈ entries, counting? entries cell = some last ∧ Cell.ofKey? last.1 = some cell
      ∧ ∀ e ∈ entries, Cell.ofKey? e.1 = some cell → e = last ∨ e.1 < last.1 := by
  have hmem : ∀ {e}, e ∈ entries.filter (fun e => Cell.ofKey? e.1 = some cell)
      ↔ e ∈ entries ∧ Cell.ofKey? e.1 = some cell := by simp
  rcases hl : counting? entries cell with _ | last
  · have hn := List.getLast?_eq_none_iff.1 hl
    have := hmem.2 ⟨he, hc⟩
    rw [hn] at this
    cases this
  · obtain ⟨before, hb⟩ := List.getLast?_eq_some_iff.1 hl
    have hp := ha.filter fun e => Cell.ofKey? e.1 = some cell
    rw [hb, List.pairwise_append] at hp
    obtain ⟨hlast, hlc⟩ := hmem.1 (hb ▸ List.mem_append_right before (.head _))
    refine ⟨last, hlast, rfl, hlc, fun e he hc => ?_⟩
    rcases List.mem_append.1 (hb ▸ hmem.2 ⟨he, hc⟩) with hm | hm
    · exact .inr (hp.2.2 e hm last (.head _))
    · exact .inl (List.mem_singleton.1 hm)

end Grid

/-! ## What a reader sees -/

/-- What a reader finds in a cell of a written sheet. -/
def readCell? (html : Text) (cell : Cell) : Option Text :=
  (Lexeme.readAll html).bind fun lexemes =>
    let rows := Lexeme.contents Tag.tr.name (Lexeme.contents Tag.tbody.name lexemes).flatten
    rows[cell.row - 1]?.bind fun row =>
      (Lexeme.contents Tag.td.name row)[cell.column - 1]?.map fun content =>
        content.flatMap Lexeme.source

namespace Grid

open Lexeme

/-- The text in a cell of the grid. -/
def textAt (g : Grid) (cell : Cell) : Text := ((g.value? cell).map Scalar.display).getD []

/-- The cells of a row. -/
def rowCells (g : Grid) (columns row : Nat) : List Markup :=
  (List.range columns).flatMap fun column =>
    element .td [] [.text (g.textAt ⟨row + 1, column + 1⟩)]

theorem body_eq (g : Grid) (rows columns : Nat) :
    g.body rows columns
      = (List.range rows).flatMap fun row => element .tr [] (g.rowCells columns row) :=
  rfl

theorem lacks_rowCells {name : Text} (hn : Tag.td.name ≠ name) (g : Grid) (columns row : Nat) :
    Lacks name (g.rowCells columns row) :=
  lacks_flatMap fun _ _ => lacks_textElement.2 hn

theorem lacks_body {name : Text} (htr : Tag.tr.name ≠ name) (htd : Tag.td.name ≠ name) (g : Grid)
    (rows columns : Nat) : Lacks name (g.body rows columns) :=
  lacks_flatMap fun row _ => lacks_element.2 ⟨htr, lacks_rowCells htd g columns row⟩

theorem contents_body (g : Grid) (rows columns : Nat) :
    contents Tag.tr.name ((g.body rows columns).flatMap ofMarkup)
      = (List.range rows).map fun row => (g.rowCells columns row).flatMap ofMarkup := by
  rw [body_eq]
  exact contents_flatMap fun row _ => lacks_rowCells (by decide) g columns row

theorem contents_rowCells (g : Grid) (columns row : Nat) :
    contents Tag.td.name ((g.rowCells columns row).flatMap ofMarkup)
      = (List.range columns).map fun column =>
        (g.textAt ⟨row + 1, column + 1⟩).map ofChar := by
  refine (contents_flatMap fun column _ => lacks_text.2 lacks_nil).trans ?_
  exact List.map_congr_left fun column _ => List.append_nil _

end Grid

theorem readCell?_body {before after : List Markup}
    (hb : Lexeme.Lacks Tag.tbody.name before) (ha : Lexeme.Lacks Tag.tbody.name after) (g : Grid)
    {rows columns : Nat} {cell : Cell} (hr : 1 ≤ cell.row) (hc : 1 ≤ cell.column) :
    readCell? (Markup.writeAll (before ++ (element .tbody [] (g.body rows columns) ++ after))) cell
      = if cell.row ≤ rows ∧ cell.column ≤ columns then
          some (escape (g.textAt cell))
        else none := by
  have htbody : Lexeme.contents Tag.tbody.name
      ((element .tbody [] (g.body rows columns)).flatMap Lexeme.ofMarkup
        ++ after.flatMap Lexeme.ofMarkup) = [(g.body rows columns).flatMap Lexeme.ofMarkup] := by
    rw [Lexeme.contents_ofMarkup (g.lacks_body (by decide) (by decide) rows columns),
      Lexeme.contents_eq_nil ha]
  have hsource : ∀ t : Text, (t.map Lexeme.ofChar).flatMap Lexeme.source = escape t :=
    fun t => (Lexeme.write_eq_source (.text t)).symm
  obtain ⟨row, column⟩ := cell
  obtain ⟨row, rfl⟩ := Nat.exists_eq_add_of_le' hr
  obtain ⟨column, rfl⟩ := Nat.exists_eq_add_of_le' hc
  unfold readCell?
  rw [Lexeme.readAll_writeAll, Option.bind_some, List.flatMap_append, Lexeme.contents_append hb,
    List.flatMap_append, htbody, List.flatten_singleton, g.contents_body]
  simp only [Nat.add_sub_cancel, List.getElem?_map]
  split
  · rename_i hin
    rw [List.getElem?_range (by omega), Option.map_some, Option.bind_some, g.contents_rowCells,
      List.getElem?_map, List.getElem?_range (by omega), Option.map_some, Option.map_some, hsource]
  · rename_i hout
    by_cases hrow : row < rows
    · rw [List.getElem?_range hrow, Option.map_some, Option.bind_some, g.contents_rowCells,
        List.getElem?_map, List.getElem?_eq_none (by simp; omega)]
      rfl
    · rw [List.getElem?_eq_none (by simp; omega)]
      rfl

/-! ## What becomes of a sheet -/

namespace Grid

/-- How many rows of the grid are shown. -/
def shownRows (limits : SheetLimits) (g : Grid) : Nat := min g.rows (max limits.maxRows 1)

/-- How many columns of the grid are shown. -/
def shownColumns (limits : SheetLimits) (g : Grid) : Nat := min g.columns (max limits.maxColumns 1)

/-- The note that the grid was cut down, if it was. -/
def foot (limits : SheetLimits) (g : Grid) : List Markup :=
  if g.shownRows limits < g.rows ∨ g.shownColumns limits < g.columns then
    element .tfoot [] (element .tr [] (textElement .td
      [.colspan (g.shownColumns limits), .className "osf-sheet-note".toList]
      (truncationNote g.rows g.columns (g.shownRows limits) (g.shownColumns limits))))
  else []

/-- The notice that the grid was cut down, if it was. -/
def cutNotices (limits : SheetLimits) (sheet : Text) (g : Grid) : List Notice :=
  if g.shownRows limits < g.rows ∨ g.shownColumns limits < g.columns then
    [.sheetTruncated sheet g.rows g.columns (g.shownRows limits) (g.shownColumns limits)]
  else []

theorem mem_cutNotices {limits : SheetLimits} {sheet : Text} {g : Grid} {notice : Notice} :
    notice ∈ g.cutNotices limits sheet
      ↔ (g.shownRows limits < g.rows ∨ g.shownColumns limits < g.columns)
        ∧ notice = .sheetTruncated sheet g.rows g.columns (g.shownRows limits)
          (g.shownColumns limits) := by
  unfold cutNotices
  split
  · rename_i hcut
    rw [List.mem_singleton, and_iff_right hcut]
  · rename_i hcut
    exact ⟨fun h => absurd h List.not_mem_nil, fun h => absurd h.1 hcut⟩

end Grid

/-- The grid that the entries of a sheet are laid out to. -/
def sheetGrid (sheet : Sheet) : Grid := (Grid.layout sheet.name {} sheet.data.entries).1

theorem value?_sheetGrid (sheet : Sheet) (cell : Cell) :
    (sheetGrid sheet).value? cell = (Grid.counting? sheet.data.entries cell).map (·.2) := by
  unfold sheetGrid
  rw [Grid.value?_layout]
  exact Option.or_none

theorem covers_sheetGrid (sheet : Sheet) : (sheetGrid sheet).Covers :=
  Grid.covers_layout sheet.name fun _ hp => absurd hp List.not_mem_nil

theorem gridRendering_eq (limits : SheetLimits) (sheet : Text) (g : Grid) :
    gridRendering limits sheet g
      = ⟨element .tbody [] (g.body (g.shownRows limits) (g.shownColumns limits)) ++ g.foot limits,
          g.cutNotices limits sheet⟩ := by
  unfold gridRendering Grid.cutNotices Grid.foot
  by_cases hcut : g.shownRows limits < g.rows ∨ g.shownColumns limits < g.columns
  · rw [if_pos hcut, if_pos hcut]
    exact if_pos hcut
  · rw [if_neg hcut, if_neg hcut, List.append_nil]
    exact if_neg hcut

theorem lacks_foot (limits : SheetLimits) (g : Grid) :
    Lexeme.Lacks Tag.tbody.name (g.foot limits) := by
  unfold Grid.foot
  split
  · rw [Lexeme.lacks_element, Lexeme.lacks_element, Lexeme.lacks_textElement]
    decide
  · exact Lexeme.lacks_nil

/-- What a sheet is rendered to in front of its cells. -/
def sheetStart (sheet : Sheet) : List Markup :=
  .opening .div [.className "osf-sheet".toList] :: textElement .h3 [] sheet.name
    ++ .opening .table [] :: sheetHead sheet.columns

/-- What a sheet is rendered to behind its cells. -/
def sheetStop : List Markup := [.closing .table, .closing .div]

/-- The names of the elements in a sheet's head are not those of its cells. -/
theorem lacks_sheetStart {name : Text} (sheet : Sheet)
    (h : ∀ tag ∈ [Tag.div, .h3, .table, .thead, .tr, .th], tag.name ≠ name) :
    Lexeme.Lacks name (sheetStart sheet) := by
  simp only [List.forall_mem_cons] at h
  obtain ⟨hdiv, hh3, htable, hthead, htr, hth, -⟩ := h
  have hhead : Lexeme.Lacks name (sheetHead sheet.columns) := by
    unfold sheetHead
    split
    · exact Lexeme.lacks_nil
    · rw [Lexeme.lacks_element, Lexeme.lacks_element]
      exact ⟨hthead, htr, Lexeme.lacks_flatMap fun _ _ => Lexeme.lacks_textElement.2 hth⟩
  simp only [sheetStart, List.cons_append, Lexeme.lacks_opening, Lexeme.lacks_append,
    Lexeme.lacks_textElement]
  exact ⟨hdiv, hh3, htable, hhead⟩

theorem lacks_sheetStop {name : Text} (h : ∀ tag ∈ [Tag.table, .div], tag.name ≠ name) :
    Lexeme.Lacks name sheetStop := by
  simp only [List.forall_mem_cons] at h
  simp only [sheetStop, Lexeme.lacks_closing]
  exact ⟨h.1, h.2.1, Lexeme.lacks_nil⟩

/-- A sheet with a filled cell is rendered to its grid, after its name and its head. -/
theorem sheetRendering_eq (limits : SheetLimits) {sheet : Sheet}
    (h : (sheetGrid sheet).cells ≠ []) :
    sheetRendering limits sheet
      = ⟨sheetStart sheet ++ (element .tbody [] ((sheetGrid sheet).body
            ((sheetGrid sheet).shownRows limits) ((sheetGrid sheet).shownColumns limits))
            ++ ((sheetGrid sheet).foot limits ++ sheetStop)),
          (Grid.layout sheet.name {} sheet.data.entries).2
            ++ (sheetGrid sheet).cutNotices limits sheet.name⟩ := by
  have hfilled : ¬ (Grid.layout sheet.name {} sheet.data.entries).1.cells.isEmpty = true :=
    fun he => h (List.isEmpty_iff.1 he)
  unfold sheetRendering
  simp only [if_neg hfilled]
  rw [show (Grid.layout sheet.name {} sheet.data.entries).1 = sheetGrid sheet from rfl,
    gridRendering_eq]
  refine congrArg (Rendering.mk · _) ?_
  simp [sheetStart, sheetStop, Rendering.wrap, Rendering.pure, element]

/-- A sheet without a filled cell is rendered to a row that says so. -/
theorem sheetRendering_empty (limits : SheetLimits) {sheet : Sheet}
    (h : (sheetGrid sheet).cells = []) :
    sheetRendering limits sheet
      = ⟨sheetStart sheet ++ (emptyBody sheet.columns.length ++ sheetStop),
          (Grid.layout sheet.name {} sheet.data.entries).2⟩ := by
  have hempty : (Grid.layout sheet.name {} sheet.data.entries).1.cells.isEmpty = true :=
    List.isEmpty_iff.2 h
  unfold sheetRendering
  simp only [if_pos hempty]
  simp [sheetStart, sheetStop, Rendering.wrap, Rendering.pure, element]

theorem mem_notices_sheetRendering (limits : SheetLimits) {sheet : Sheet}
    (h : (sheetGrid sheet).cells ≠ []) {notice : Notice} :
    notice ∈ (sheetRendering limits sheet).notices
      ↔ notice ∈ (Grid.layout sheet.name {} sheet.data.entries).2
        ∨ notice ∈ (sheetGrid sheet).cutNotices limits sheet.name := by
  rw [sheetRendering_eq limits h]
  exact List.mem_append

/-- A cell that is not cut off shows the value of the entry that counts for it. -/
theorem readCell?_sheetRendering (limits : SheetLimits) {sheet : Sheet} {cell : Cell}
    {last : Text × Scalar} (hr : 1 ≤ cell.row) (hc : 1 ≤ cell.column)
    (hl : Grid.counting? sheet.data.entries cell = some last) :
    readCell? (Markup.writeAll (sheetRendering limits sheet).markup) cell
      = if cell.row ≤ (sheetGrid sheet).shownRows limits
            ∧ cell.column ≤ (sheetGrid sheet).shownColumns limits then
          some (escape last.2.display)
        else none := by
  have hvalue : (sheetGrid sheet).value? cell = some last.2 := by
    rw [value?_sheetGrid, hl, Option.map_some]
  have hstart : Lexeme.Lacks Tag.tbody.name (sheetStart sheet) :=
    lacks_sheetStart sheet (by decide)
  have hrest : Lexeme.Lacks Tag.tbody.name ((sheetGrid sheet).foot limits ++ sheetStop) :=
    Lexeme.lacks_append.2 ⟨lacks_foot limits _, lacks_sheetStop (by decide)⟩
  rw [sheetRendering_eq limits (Grid.cells_ne_nil_of_value? hvalue),
    readCell?_body hstart hrest _ hr hc]
  simp only [Grid.textAt, hvalue, Option.map_some, Option.getD_some]

/-! ## What becomes of an entry -/

/-- Whether an entry is shown in its cell, or reported as malformed or as cut off. -/
def Accounted (limits : SheetLimits) (sheet : Sheet) (key : Text) (value : Scalar) : Prop :=
  (∃ cell, Cell.ofKey? key = some cell
      ∧ readCell? (Markup.writeAll (sheetRendering limits sheet).markup) cell
        = some (escape value.display))
    ∨ .malformedCellKey sheet.name key ∈ (sheetRendering limits sheet).notices
    ∨ ∃ cell rows columns shownRows shownColumns, Cell.ofKey? key = some cell
      ∧ .sheetTruncated sheet.name rows columns shownRows shownColumns
        ∈ (sheetRendering limits sheet).notices
      ∧ (shownRows < cell.row ∨ shownColumns < cell.column)

theorem one_le_of_ofKey? {key : Text} {cell : Cell} (h : Cell.ofKey? key = some cell) :
    1 ≤ cell.row ∧ 1 ≤ cell.column := by
  unfold Cell.ofKey? at h
  split at h
  · cases h
  · split at h
    · split at h
      · rename_i hc
        cases h
        exact hc
      · cases h
    · cases h

theorem accounted_of_malformed (limits : SheetLimits) {sheet : Sheet} {key : Text} {value : Scalar}
    (h : (key, value) ∈ sheet.data.entries) (hk : Cell.ofKey? key = none) :
    Accounted limits sheet key value := by
  refine .inr (.inl ?_)
  unfold sheetRendering
  simp only [Rendering.wrap, Rendering.notices_append, List.mem_append]
  exact .inr (.inl (Grid.malformed_mem_layout.2 ⟨_, h, rfl, hk⟩))

/-- An entry whose key names a cell is accounted for if the cell is cut off, or if the entry that
counts for the cell shows the same text. -/
theorem accounted_iff_of_counting (limits : SheetLimits) {sheet : Sheet} {key : Text}
    {value : Scalar} {cell : Cell} {last : Text × Scalar} (hk : Cell.ofKey? key = some cell)
    (hl : Grid.counting? sheet.data.entries cell = some last) :
    Accounted limits sheet key value
      ↔ ¬ (cell.row ≤ (sheetGrid sheet).shownRows limits
          ∧ cell.column ≤ (sheetGrid sheet).shownColumns limits)
        ∨ last.2.display = value.display := by
  obtain ⟨hr, hc⟩ := one_le_of_ofKey? hk
  have hread := readCell?_sheetRendering limits hr hc hl
  have hvalue : (sheetGrid sheet).value? cell = some last.2 := by
    rw [value?_sheetGrid, hl, Option.map_some]
  obtain ⟨hrows, hcolumns⟩ := Grid.le_of_value? (covers_sheetGrid sheet) hvalue
  have hnotices : ∀ {notice}, notice ∈ (sheetRendering limits sheet).notices ↔ _ :=
    mem_notices_sheetRendering limits (Grid.cells_ne_nil_of_value? hvalue)
  constructor
  · rintro (⟨named, hn, hshown⟩ | hm | ⟨named, rows, columns, toRow, toColumn, hn, hm, hout⟩)
    · cases hk.symm.trans hn
      rw [hread] at hshown
      split at hshown
      · exact .inr (escape_injective (Option.some.inj hshown))
      · cases hshown
    · rcases hnotices.1 hm with hm | hm
      · obtain ⟨-, -, -, hnone⟩ := Grid.malformed_mem_layout.1 hm
        cases hk.symm.trans hnone
      · cases (Grid.mem_cutNotices.1 hm).2
    · cases hk.symm.trans hn
      rcases hnotices.1 hm with hm | hm
      · exact absurd hm Grid.truncated_not_mem_layout
      · -- the one notice of a cut tells how much is shown, so the cell is not
        cases (Grid.mem_cutNotices.1 hm).2
        exact .inl (by omega)
  · intro h
    by_cases hin : cell.row ≤ (sheetGrid sheet).shownRows limits
        ∧ cell.column ≤ (sheetGrid sheet).shownColumns limits
    · refine .inl ⟨cell, hk, ?_⟩
      rw [hread, if_pos hin, h.resolve_left (not_not_intro hin)]
    · exact .inr (.inr ⟨cell, _, _, _, _, hk,
        hnotices.2 (.inr (Grid.mem_cutNotices.2 ⟨by omega, rfl⟩)), by omega⟩)

/-- A filled cell is cut off if it lies beyond the limits. -/
theorem shown_iff_of_covers {g : Grid} (limits : SheetLimits) {cell : Cell}
    (hr : cell.row ≤ g.rows) (hc : cell.column ≤ g.columns) :
    cell.row ≤ g.shownRows limits ∧ cell.column ≤ g.shownColumns limits
      ↔ cell.row ≤ max limits.maxRows 1 ∧ cell.column ≤ max limits.maxColumns 1 := by
  unfold Grid.shownRows Grid.shownColumns
  omega

/-- An entry is lost without a notice exactly if its cell is shown with another text, that of the
greatest key for the cell. -/
theorem not_accounted_iff (limits : SheetLimits) (sheet : Sheet) {key : Text} {value : Scalar}
    (h : (key, value) ∈ sheet.data.entries) :
    ¬ Accounted limits sheet key value
      ↔ ∃ cell, Cell.ofKey? key = some cell
        ∧ cell.row ≤ max limits.maxRows 1 ∧ cell.column ≤ max limits.maxColumns 1
        ∧ ∃ later ∈ sheet.data.entries, Cell.ofKey? later.1 = some cell ∧ key < later.1
          ∧ (∀ e ∈ sheet.data.entries, Cell.ofKey? e.1 = some cell → ¬ later.1 < e.1)
          ∧ later.2.display ≠ value.display := by
  rcases hk : Cell.ofKey? key with _ | cell
  · have ha := accounted_of_malformed limits h hk
    exact ⟨fun hn => absurd ha hn, fun ⟨cell, hc, _⟩ => nomatch hc⟩
  · obtain ⟨last, hlast, hcounting, hnamed, hgreatest⟩ :=
      Grid.counting?_of_mem sheet.data.ascending h hk
    have hvalue : (sheetGrid sheet).value? cell = some last.2 := by
      rw [value?_sheetGrid, hcounting, Option.map_some]
    obtain ⟨hrows, hcolumns⟩ := Grid.le_of_value? (covers_sheetGrid sheet) hvalue
    rw [accounted_iff_of_counting limits hk hcounting, shown_iff_of_covers limits hrows hcolumns,
      not_or, Decidable.not_not]
    constructor
    · rintro ⟨⟨hr, hc⟩, hd⟩
      have hlt : key < last.1 := by
        rcases hgreatest _ h hk with rfl | hlt
        · exact absurd rfl hd
        · exact hlt
      refine ⟨cell, rfl, hr, hc, last, hlast, hnamed, hlt, fun e he hce => ?_, hd⟩
      rcases hgreatest e he hce with rfl | hlt
      · exact List.lt_irrefl _
      · exact List.lt_asymm hlt
    · rintro ⟨named, hcell, hr, hc, later, hlater, hlc, -, hgreater, hd⟩
      cases hcell
      rcases hgreatest later hlater hlc with rfl | hlt
      · exact ⟨⟨hr, hc⟩, hd⟩
      · exact absurd hlt (hgreater last hlast hnamed)

/-- A sheet with two keys for its one cell. -/
def twoKeysSheet : Sheet where
  name := "Sheet".toList
  columns := []
  data := ⟨[("01,1".toList, .text "old".toList), ("1,1".toList, .text "new".toList)], by decide⟩

theorem twoKeysSheet_not_accounted :
    ("01,1".toList, .text "old".toList) ∈ twoKeysSheet.data.entries
      ∧ ¬ Accounted {} twoKeysSheet "01,1".toList (.text "old".toList) := by
  have hmem : ("01,1".toList, .text "old".toList) ∈ twoKeysSheet.data.entries := .head _
  refine ⟨hmem, (not_accounted_iff {} twoKeysSheet hmem).2 ?_⟩
  refine ⟨⟨1, 1⟩, by decide, by decide, by decide, ("1,1".toList, .text "new".toList),
    .tail _ (.head _), by decide, by decide, ?_, by decide⟩
  intro e he _
  rcases List.mem_cons.1 he with rfl | he
  · decide
  · rw [List.mem_singleton.1 he]
    exact List.lt_irrefl _

end BlockDocument.Html
