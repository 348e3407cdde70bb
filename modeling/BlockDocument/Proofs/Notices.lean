import BlockDocument.Html.Block
import BlockDocument.Proofs.ByteOrder
import BlockDocument.Proofs.SheetCells

/-!
# What notices tell

A block calls for notices: an unknown block for one, a slide for one about each part of its content
that is unsupported, and a sheet for one about each malformed key and one about the cut if a cell
that a key names lies outside the part that is shown. Rendering sends these, block by block, and no
others (`notices_account`).

What a notice about a malformed key or unsupported content tells of leaves no trace: without it the
markup is the same. A slide whose content is all unsupported is the exception, as without it the
bullets would be shown.
-/

namespace BlockDocument

open Html (SheetLimits)

/-! ## What calls for notices -/

namespace Sheet

/-- The keys that name no cell, in their order. -/
def malformedKeys (s : Sheet) : List Text := s.data.keys.filter fun key => (Cell.ofKey? key).isNone

/-- The cells that keys name. -/
def cells (s : Sheet) : List Cell := s.data.keys.filterMap Cell.ofKey?

/-- The largest row and the largest column of any cell. -/
def extent (s : Sheet) : Cell where
  row := (s.cells.map Cell.row).foldl max 1
  column := (s.cells.map Cell.column).foldl max 1

/-- The last row and the last column that are shown. -/
def shown (limits : SheetLimits) (s : Sheet) : Cell where
  row := min s.extent.row (max limits.maxRows 1)
  column := min s.extent.column (max limits.maxColumns 1)

/-- Whether a cell lies outside the part that is shown. -/
def cutsOff (limits : SheetLimits) (s : Sheet) (cell : Cell) : Bool :=
  (s.shown limits).row < cell.row || (s.shown limits).column < cell.column

/-- The notices that a sheet calls for. -/
def notices (limits : SheetLimits) (s : Sheet) : List Notice :=
  s.malformedKeys.map (.malformedCellKey s.name)
    ++ if s.cells.any (s.cutsOff limits) then
      [.sheetTruncated s.name s.extent.row s.extent.column (s.shown limits).row
        (s.shown limits).column]
    else []

/-- The sheet without its malformed keys. -/
def pruned (s : Sheet) : Sheet :=
  { s with
    data := ⟨s.data.entries.filter fun e => (Cell.ofKey? e.1).isSome, s.data.ascending.filter _⟩ }

theorem malformedKeys_pairwise (s : Sheet) :
    s.malformedKeys.Pairwise fun a b => a.utf8 < b.utf8 := by
  refine List.Pairwise.filter _ (List.pairwise_map.2 ?_)
  exact s.data.ascending.imp Text.utf8_lt_utf8

end Sheet

namespace Slide

/-- The notices that a slide calls for. -/
def notices (s : Slide) : List Notice :=
  (s.content.filter (· = .unsupported)).map fun _ => .skippedContent s.title

/-- The slide without its unsupported content, unless that is all its content. -/
def pruned (s : Slide) : Slide :=
  if s.content.all (· = .unsupported) then s
  else { s with content := s.content.filter (· ≠ .unsupported) }

end Slide

namespace Block

/-- The notices that a block calls for. -/
def notices (limits : SheetLimits) : Block → List Notice
  | unknown block => [.unknownBlock block.kind]
  | slide block => block.notices
  | sheet block => block.notices limits
  | properties _ | doc _ | table _ | chart _ | diagram _ | code _ => []

/-- The block without what leaves no trace but a notice. -/
def pruned : Block → Block
  | slide block => slide block.pruned
  | sheet block => sheet block.pruned
  | block => block

end Block

namespace Html

theorem Rendering.notices_each {α : Type} (render : α → Rendering) : ∀ as : List α,
    (Rendering.each render as).notices = as.flatMap fun a => (render a).notices
  | [] => rfl
  | a :: as => congrArg ((render a).notices ++ ·) (notices_each render as)

theorem Rendering.markup_each {α : Type} (render : α → Rendering) : ∀ as : List α,
    (Rendering.each render as).markup = as.flatMap fun a => (render a).markup
  | [] => rfl
  | a :: as => congrArg ((render a).markup ++ ·) (markup_each render as)

/-! ## Sheets -/

namespace Grid

theorem layout_extent (sheet : Text) : ∀ (g : Grid) (entries : List (Text × Scalar)),
    let cells := (entries.map (·.1)).filterMap Cell.ofKey?
    (layout sheet g entries).1.rows = (cells.map Cell.row).foldl max g.rows
      ∧ (layout sheet g entries).1.columns = (cells.map Cell.column).foldl max g.columns
  | _, [] => ⟨rfl, rfl⟩
  | g, (key, value) :: entries => by
    simp only [layout, List.map_cons]
    split
    · rename_i cell hk
      rw [List.filterMap_cons_some hk]
      exact layout_extent sheet (g.place cell value) entries
    · rename_i hk
      rw [List.filterMap_cons_none hk]
      exact layout_extent sheet g entries

theorem layout_filter (sheet : Text) : ∀ (g : Grid) (entries : List (Text × Scalar)),
    (layout sheet g (entries.filter fun e => (Cell.ofKey? e.1).isSome)).1
      = (layout sheet g entries).1
  | _, [] => rfl
  | g, (key, value) :: entries => by
    rcases hk : Cell.ofKey? key with _ | cell
    · rw [List.filter_cons_of_neg (by simp [hk]), layout_filter sheet g entries]
      simp only [layout, hk]
    · rw [List.filter_cons_of_pos (by simp [hk])]
      simp only [layout, hk]
      exact layout_filter sheet (g.place cell value) entries

theorem cells_layout_eq_nil_iff {sheet : Text} : ∀ {g : Grid} {entries : List (Text × Scalar)},
    (layout sheet g entries).1.cells = []
      ↔ g.cells = [] ∧ (entries.map (·.1)).filterMap Cell.ofKey? = []
  | _, [] => by simp [layout]
  | g, (key, value) :: entries => by
    simp only [layout, List.map_cons]
    split
    · rename_i cell hk
      rw [List.filterMap_cons_some hk, cells_layout_eq_nil_iff]
      simp [place]
    · rename_i hk
      rw [List.filterMap_cons_none hk]
      exact cells_layout_eq_nil_iff

end Grid

theorem lt_foldl_max_iff {n : Nat} : ∀ {xs : List Nat} {m : Nat},
    n < xs.foldl max m ↔ n < m ∨ ∃ x ∈ xs, n < x
  | [], m => by simp
  | x :: xs, m => by
    have hmax : n < max m x ↔ n < m ∨ n < x := by omega
    rw [List.foldl_cons, lt_foldl_max_iff, hmax, List.exists_mem_cons_iff, or_assoc]

variable (limits : SheetLimits) (sheet : Sheet)

theorem cells_sheetGrid_eq_nil_iff : (sheetGrid sheet).cells = [] ↔ sheet.cells = [] :=
  Grid.cells_layout_eq_nil_iff.trans (and_iff_right rfl)

theorem rows_sheetGrid : (sheetGrid sheet).rows = sheet.extent.row :=
  (Grid.layout_extent sheet.name {} sheet.data.entries).1

theorem columns_sheetGrid : (sheetGrid sheet).columns = sheet.extent.column :=
  (Grid.layout_extent sheet.name {} sheet.data.entries).2

theorem one_le_shown : 1 ≤ (sheet.shown limits).row ∧ 1 ≤ (sheet.shown limits).column := by
  have hone : ∀ xs : List Nat, 0 < xs.foldl max 1 := fun xs => lt_foldl_max_iff.2 (.inl Nat.one_pos)
  have hrow : 0 < sheet.extent.row := hone _
  have hcolumn : 0 < sheet.extent.column := hone _
  simp only [Sheet.shown]
  omega

/-- The extents tell whether there is a cell outside the part that is shown. -/
theorem any_cutsOff_iff :
    sheet.cells.any (sheet.cutsOff limits) = true
      ↔ (sheet.shown limits).row < sheet.extent.row
        ∨ (sheet.shown limits).column < sheet.extent.column := by
  obtain ⟨hrow, hcolumn⟩ := one_le_shown limits sheet
  have hlt : ∀ {n : Nat} (f : Cell → Nat), 1 ≤ n →
      (n < (sheet.cells.map f).foldl max 1 ↔ ∃ cell ∈ sheet.cells, n < f cell) := by
    intro n f hn
    rw [lt_foldl_max_iff, or_iff_right (by omega)]
    simp
  simp only [Sheet.extent, hlt _ hrow, hlt _ hcolumn, List.any_eq_true, Sheet.cutsOff,
    Bool.or_eq_true, decide_eq_true_eq]
  constructor
  · rintro ⟨cell, hm, h | h⟩
    · exact .inl ⟨cell, hm, h⟩
    · exact .inr ⟨cell, hm, h⟩
  · rintro (⟨cell, hm, h⟩ | ⟨cell, hm, h⟩)
    · exact ⟨cell, hm, .inl h⟩
    · exact ⟨cell, hm, .inr h⟩

theorem cutNotices_sheetGrid :
    (sheetGrid sheet).cutNotices limits sheet.name
      = if sheet.cells.any (sheet.cutsOff limits) then
          [.sheetTruncated sheet.name sheet.extent.row sheet.extent.column
            (sheet.shown limits).row (sheet.shown limits).column]
        else [] := by
  unfold Grid.cutNotices Grid.shownRows Grid.shownColumns
  rw [rows_sheetGrid, columns_sheetGrid]
  exact if_congr (any_cutsOff_iff limits sheet).symm rfl rfl

theorem notices_sheetRendering : (sheetRendering limits sheet).notices = sheet.notices limits := by
  have hmalformed : (Grid.layout sheet.name {} sheet.data.entries).2
      = sheet.malformedKeys.map (.malformedCellKey sheet.name) := by
    rw [Grid.layout_notices]
    unfold Sheet.malformedKeys Dictionary.keys
    rw [List.filter_map, List.map_map]
    rfl
  unfold Sheet.notices
  rw [← hmalformed, ← cutNotices_sheetGrid]
  by_cases h : (sheetGrid sheet).cells = []
  · -- a sheet without a cell has nothing that could be cut off
    have hcells : sheet.cells = [] := (cells_sheetGrid_eq_nil_iff sheet).1 h
    rw [sheetRendering_empty limits h, cutNotices_sheetGrid, hcells]
    exact (List.append_nil _).symm
  · rw [sheetRendering_eq limits h]

theorem markup_sheetRendering_pruned :
    (sheetRendering limits sheet.pruned).markup = (sheetRendering limits sheet).markup := by
  simp only [sheetRendering, Sheet.pruned, Rendering.wrap, Rendering.markup_append,
    Grid.layout_filter]

/-! ## Slides -/

theorem notices_contentRendering (slide : Text) (content : SlideContent) :
    (contentRendering slide content).notices
      = if content = .unsupported then [.skippedContent slide] else [] := by
  cases content <;> rfl

theorem notices_contentsRendering (slide : Text) (contents : List SlideContent) :
    (contentsRendering slide contents).notices
      = (contents.filter (· = .unsupported)).map fun _ => .skippedContent slide := by
  unfold contentsRendering
  rw [Rendering.notices_each]
  induction contents with
  | nil => rfl
  | cons content contents ih =>
    rw [List.flatMap_cons, ih, notices_contentRendering]
    split
    · rename_i hc
      rw [List.filter_cons_of_pos (by simp [hc])]
      rfl
    · rename_i hc
      rw [List.filter_cons_of_neg (by simp [hc])]
      rfl

theorem markup_contentsRendering_filter (slide : Text) (contents : List SlideContent) :
    (contentsRendering slide (contents.filter (· ≠ .unsupported))).markup
      = (contentsRendering slide contents).markup := by
  unfold contentsRendering
  rw [Rendering.markup_each, Rendering.markup_each]
  induction contents with
  | nil => rfl
  | cons content contents ih =>
    by_cases hc : content = .unsupported
    · rw [List.filter_cons_of_neg (by simp [hc]), ih, hc]
      rfl
    · rw [List.filter_cons_of_pos (by simp [hc]), List.flatMap_cons, List.flatMap_cons, ih]

theorem notices_slideRendering (slide : Slide) :
    (slideRendering slide).notices = slide.notices := by
  show (slideBody slide).notices = _
  unfold slideBody Slide.notices
  split
  · exact notices_contentsRendering slide.title slide.content
  · rename_i hc
    rw [Bool.not_eq_true, Bool.not_eq_false', List.isEmpty_iff] at hc
    rw [hc]
    split <;> rfl

theorem markup_slideRendering_pruned (slide : Slide) :
    (slideRendering slide.pruned).markup = (slideRendering slide).markup := by
  unfold Slide.pruned
  split
  · rfl
  · rename_i hall
    have hbody : ∀ {contents : List SlideContent}, contents ≠ [] →
        slideBody { slide with content := contents }
          = contentsRendering slide.title contents := by
      intro contents hc
      exact if_pos (by simpa using hc)
    have hkept : slide.content.filter (· ≠ .unsupported) ≠ [] := by
      simpa [List.filter_eq_nil_iff] using hall
    have hcontent : slide.content ≠ [] := fun hc => hkept (by rw [hc, List.filter_nil])
    have hslide : slideBody slide = contentsRendering slide.title slide.content := hbody hcontent
    unfold slideRendering
    simp only [Rendering.wrap, Rendering.markup_append, hbody hkept, hslide,
      markup_contentsRendering_filter]

/-! ## Blocks -/

theorem notices_blockRendering (block : Block) :
    (blockRendering limits block).notices = block.notices limits := by
  cases block with
  | slide block => exact notices_slideRendering block
  | sheet block => exact notices_sheetRendering limits block
  | properties | doc | table | chart | diagram | code | unknown => rfl

theorem markup_blockRendering_pruned (block : Block) :
    (blockRendering limits block.pruned).markup = (blockRendering limits block).markup := by
  cases block with
  | slide block => exact markup_slideRendering_pruned block
  | sheet block => exact markup_sheetRendering_pruned limits block
  | properties | doc | table | chart | diagram | code | unknown => rfl

/-- Rendering sends the notices that blocks call for, in their order and with the malformed keys of
each sheet in the order of their bytes; and what leaves no trace but a notice changes nothing in
what is written. -/
theorem notices_account (blocks : List Block) :
    (blocksRendering limits blocks).notices = blocks.flatMap (Block.notices limits)
      ∧ (∀ sheet : Sheet, sheet.malformedKeys.Pairwise fun a b => a.utf8 < b.utf8)
      ∧ Markup.writeAll (blocksRendering limits (blocks.map Block.pruned)).markup
        = Markup.writeAll (blocksRendering limits blocks).markup := by
  refine ⟨?_, Sheet.malformedKeys_pairwise, ?_⟩
  · unfold blocksRendering
    rw [Rendering.notices_each]
    simp only [notices_blockRendering]
  · unfold blocksRendering
    rw [Rendering.markup_each, Rendering.markup_each, List.flatMap_map]
    simp only [markup_blockRendering_pruned]

end Html

end BlockDocument
