import BlockDocument.Html.Block
import BlockDocument.Proofs.RunReading

/-!
# Tables, diagrams and listings as they are shown

Two tables, diagrams or listings are written alike exactly if they agree in all that they show
(`write_eq_iff_shownAlike`), which for a table is all but the alignment of columns that nothing
stands in.

What is written is read as lexemes, and each piece tells where it ends, whatever follows: an
element that holds a text at its closing tag, and elements of one name, of which there may be none,
at the first tag of another name. So the pieces are taken off the front one after the other
(`IsDelimited.flatMap_append_inj`).
-/

namespace BlockDocument

namespace Table

/-- That a header or a cell stands in a column. -/
def Occupies (t : Table) (column : Nat) : Prop :=
  column < t.headers.length ∨ ∃ row ∈ t.rows, column < row.length

/-- That two tables agree in all that they show. A column that nothing is said of is aligned to the
left. -/
structure ShownAlike (t u : Table) : Prop where
  style : t.style = u.style
  caption : t.caption = u.caption
  headers : t.headers = u.headers
  rows : t.rows = u.rows
  alignment : ∀ column, t.Occupies column →
    (t.alignment[column]?).getD .left = (u.alignment[column]?).getD .left

end Table

namespace Block

/-- Whether a block is a table, a diagram or a listing. -/
def showsAll : Block → Bool
  | table _ | diagram _ | code _ => true
  | _ => false

/-- That two tables, diagrams or listings agree in all that they show. -/
def ShownAlike : Block → Block → Prop
  | table t, table u => t.ShownAlike u
  | diagram d, diagram e => d = e
  | code l, code m => l = m
  | _, _ => False

end Block

namespace Html

/-! ## Lexemes that tell where they end -/

/-- The name in the tag that lexemes begin with. -/
def firstName? (lexemes : List Lexeme) : Option Text := lexemes.head?.bind Lexeme.name?

@[simp]
theorem firstName?_inElement_append (e : Text × List (Text × Text)) (inside rest : List Lexeme) :
    firstName? (inElement e inside ++ rest) = some e.1 := rfl

@[simp]
theorem firstName?_closing (name : Text) (rest : List Lexeme) :
    firstName? (.closing name :: rest) = some name := rfl

/-- That what is read for different values can be told apart, whatever follows it, and begins with a
tag of the given name. -/
structure IsDelimited {α : Type} (name : Text) (read : α → List Lexeme) : Prop where
  begins : ∀ a rest, firstName? (read a ++ rest) = some name
  inj : ∀ {a b : α} {rest rest' : List Lexeme}, read a ++ rest = read b ++ rest' →
    a = b ∧ rest = rest'

theorem inElement_append (e : Text × List (Text × Text)) (inside rest : List Lexeme) :
    inElement e inside ++ rest = .opening e.1 e.2 :: (inside ++ .closing e.1 :: rest) := by
  simp [inElement]

theorem map_char_append_inj {name name' : Text} {rest rest' : List Lexeme} : ∀ {s t : Text},
    s.map Lexeme.char ++ .closing name :: rest = t.map Lexeme.char ++ .closing name' :: rest' →
      s = t ∧ rest = rest'
  | [], [], h => by simp_all
  | [], _ :: _, h => by simp at h
  | _ :: _, [], h => by simp at h
  | c :: s, d :: t, h => by
    simp only [List.map_cons, List.cons_append, List.cons.injEq, Lexeme.char.injEq] at h
    obtain ⟨rfl, hrest⟩ := h
    obtain ⟨rfl, rfl⟩ := map_char_append_inj hrest
    exact ⟨rfl, rfl⟩

namespace IsDelimited

variable {α : Type} {name : Text} {read : α → List Lexeme}

theorem firstName?_ne (h : IsDelimited name read) {other : Text} (hne : name ≠ other) (a : α)
    (rest : List Lexeme) : firstName? (read a ++ rest) ≠ some other := by
  simpa [h.begins] using hne

/-- Elements of one name, one after the other, end where no tag of that name follows. -/
theorem flatMap_append_inj (h : IsDelimited name read) {rest rest' : List Lexeme}
    (hr : firstName? rest ≠ some name) (hr' : firstName? rest' ≠ some name) : ∀ {as bs : List α},
    as.flatMap read ++ rest = bs.flatMap read ++ rest' → as = bs ∧ rest = rest'
  | [], [], heq => ⟨rfl, heq⟩
  | [], b :: bs, heq => by
    rw [List.flatMap_nil, List.nil_append, List.flatMap_cons, List.append_assoc] at heq
    rw [heq, h.begins] at hr
    exact absurd rfl hr
  | a :: as, [], heq => by
    rw [List.flatMap_nil, List.nil_append, List.flatMap_cons, List.append_assoc] at heq
    rw [← heq, h.begins] at hr'
    exact absurd rfl hr'
  | a :: as, b :: bs, heq => by
    simp only [List.flatMap_cons, List.append_assoc] at heq
    obtain ⟨rfl, hmore⟩ := h.inj heq
    obtain ⟨rfl, hrest⟩ := flatMap_append_inj h hr hr' hmore
    exact ⟨rfl, hrest⟩

theorem firstName?_flatMap_append (h : IsDelimited name read) (rest : List Lexeme) :
    ∀ as : List α, firstName? (as.flatMap read ++ rest) = some name
      ∨ firstName? (as.flatMap read ++ rest) = firstName? rest
  | [] => .inr rfl
  | a :: as => by
    left
    rw [List.flatMap_cons, List.append_assoc, h.begins]

/-- An element around what tells where it ends. -/
theorem inElement (h : IsDelimited name read) (e : Text × List (Text × Text)) :
    IsDelimited e.1 fun a => inElement e (read a) where
  begins _ _ := rfl
  inj heq := by
    simp only [inElement_append, List.cons.injEq, true_and] at heq
    obtain ⟨hab, hrest⟩ := h.inj heq
    exact ⟨hab, (List.cons.inj hrest).2⟩

/-- An element around elements of another name. -/
theorem inElement_flatMap (h : IsDelimited name read) {e : Text × List (Text × Text)}
    (he : e.1 ≠ name) : IsDelimited e.1 fun as : List α => Html.inElement e (as.flatMap read) where
  begins _ _ := rfl
  inj heq := by
    simp only [inElement_append, List.cons.injEq, true_and] at heq
    have hclosing : ∀ rest, firstName? (Lexeme.closing e.1 :: rest) ≠ some name := by
      simpa using he
    obtain ⟨hab, hrest⟩ := h.flatMap_append_inj (hclosing _) (hclosing _) heq
    exact ⟨hab, (List.cons.inj hrest).2⟩

end IsDelimited

/-- A piece of markup as it is read back. -/
def readMarkup (content : List Markup) : List Lexeme := content.flatMap markupLexemes

@[simp]
theorem readMarkup_append (ms ns : List Markup) :
    readMarkup (ms ++ ns) = readMarkup ms ++ readMarkup ns :=
  List.flatMap_append

theorem readMarkup_flatMap {α : Type} (f : α → List Markup) (as : List α) :
    readMarkup (as.flatMap f) = as.flatMap fun a => readMarkup (f a) :=
  List.flatMap_assoc

theorem readMarkup_element (tag : Tag) (attributes : List Attribute) (content : List Markup) :
    readMarkup (element tag attributes content)
      = inElement (tag.name, attributes.map fun a => (a.name, a.value)) (readMarkup content) :=
  flatMap_markupLexemes_element tag attributes content

theorem readMarkup_eq_of_writeAll {ms ns : List Markup}
    (h : Markup.writeAll ms = Markup.writeAll ns) : readMarkup ms = readMarkup ns := by
  have hread := readDecoded?_writeAll ms
  rw [h, readDecoded?_writeAll] at hread
  exact (Option.some.inj hread).symm

theorem of_readMarkup_element {tag tag' : Tag} {attributes attributes' : List Attribute}
    {content content' : List Markup} (h : readMarkup (element tag attributes content)
      = readMarkup (element tag' attributes' content')) :
    tag.name = tag'.name ∧ attributes.map Attribute.value = attributes'.map Attribute.value
      ∧ readMarkup content ++ [.closing tag.name]
        = readMarkup content' ++ [.closing tag'.name] := by
  rw [readMarkup_element, readMarkup_element, ← List.append_nil (inElement _ _), inElement_append,
    ← List.append_nil (inElement _ _), inElement_append, List.cons.injEq,
    Lexeme.opening.injEq] at h
  obtain ⟨⟨hname, hattributes⟩, hcontent⟩ := h
  have hvalues := congrArg (List.map Prod.snd) hattributes
  simp only [List.map_map, Function.comp_def] at hvalues
  exact ⟨hname, hvalues, hcontent⟩

/-- An element with a text, of which the values of the attributes and the text say all. -/
theorem isDelimited_textElement {α : Type} (tag : Tag) (attributes : α → List Attribute)
    (content : α → Text) (hinj : ∀ {a b}, (attributes a).map Attribute.value
      = (attributes b).map Attribute.value → content a = content b → a = b) :
    IsDelimited tag.name fun a => readMarkup (textElement tag (attributes a) (content a)) where
  begins _ _ := rfl
  inj {a b rest rest'} heq := by
    have htext : ∀ c, readMarkup [.text c] = c.map .char := fun c => List.append_nil _
    simp only [textElement, readMarkup_element, htext, inElement_append, List.cons.injEq,
      Lexeme.opening.injEq, true_and] at heq
    obtain ⟨hattributes, hrest⟩ := heq
    obtain ⟨hcontent, hrest⟩ := map_char_append_inj hrest
    have hvalues := congrArg (List.map Prod.snd) hattributes
    simp only [List.map_map, Function.comp_def] at hvalues
    exact ⟨hinj hvalues hcontent, hrest⟩

theorem isDelimited_text (tag : Tag) (attributes : List Attribute) :
    IsDelimited tag.name fun content => readMarkup (textElement tag attributes content) :=
  isDelimited_textElement tag (fun _ => attributes) id fun _ h => h

theorem optionalElement_eq (tag : Tag) (attributes : List Attribute) (content : Option Text) :
    optionalElement tag attributes content
      = content.toList.flatMap (textElement tag attributes) := by
  cases content <;> simp [optionalElement]

/-- An optional element ends where no tag of its name follows. -/
theorem optionalElement_append_inj {tag : Tag} {attributes : List Attribute}
    {content content' : Option Text} {rest rest' : List Lexeme}
    (hr : firstName? rest ≠ some tag.name) (hr' : firstName? rest' ≠ some tag.name)
    (h : readMarkup (optionalElement tag attributes content) ++ rest
      = readMarkup (optionalElement tag attributes content') ++ rest') :
    content = content' ∧ rest = rest' := by
  simp only [optionalElement_eq, readMarkup_flatMap] at h
  obtain ⟨hcontent, hrest⟩ := (isDelimited_text tag attributes).flatMap_append_inj hr hr' h
  refine ⟨?_, hrest⟩
  rcases content with _ | c <;> rcases content' with _ | c' <;> simp_all

/-! ## Tables -/

/-- A text with the alignment of its column, in an element. -/
def alignedElement (tag : Tag) (cell : Alignment × Text) : List Markup :=
  textElement tag [alignmentStyle cell.1] cell.2

/-- A row of aligned texts, each in an element. -/
def alignedRow (tag : Tag) (row : List (Alignment × Text)) : List Markup :=
  element .tr [] (row.flatMap (alignedElement tag))

/-- The head of a table, of one row. -/
def alignedHead (row : List (Alignment × Text)) : List Markup :=
  element .thead [] (alignedRow .th row)

/-- The body of a table. -/
def alignedBody (rows : List (List (Alignment × Text))) : List Markup :=
  element .tbody [] (rows.flatMap (alignedRow .td))

end Html

namespace Table

/-- A row with the alignments of its columns. -/
def aligned (t : Table) (row : List Text) : List (Alignment × Text) :=
  row.mapIdx fun column cell => (t.alignmentOf column, cell)

theorem getElem?_aligned (t : Table) (row : List Text) (column : Nat) :
    (t.aligned row)[column]? = row[column]?.map fun cell => (t.alignmentOf column, cell) := by
  simp [aligned]

theorem map_snd_aligned (t : Table) (row : List Text) : (t.aligned row).map Prod.snd = row := by
  refine List.ext_getElem? fun column => ?_
  simp [getElem?_aligned, Function.comp_def]

theorem aligned_eq_iff {t u : Table} {row : List Text} : t.aligned row = u.aligned row
    ↔ ∀ column < row.length, t.alignmentOf column = u.alignmentOf column := by
  rw [List.ext_getElem?_iff]
  simp only [getElem?_aligned]
  constructor
  · intro h column hlt
    have hcolumn := h column
    simp only [List.getElem?_eq_getElem hlt, Option.map_some, Option.some.injEq,
      Prod.mk.injEq] at hcolumn
    exact hcolumn.1
  · intro hcolumns column
    rcases Nat.lt_or_ge column row.length with hlt | hge
    · rw [hcolumns column hlt]
    · rw [List.getElem?_eq_none hge]
      rfl

/-- The row of headers, if there are any. -/
def headRows (t : Table) : List (List (Alignment × Text)) :=
  if t.headers.isEmpty then [] else [t.aligned t.headers]

/-- The rows under the headers. -/
def bodyRows (t : Table) : List (List (Alignment × Text)) := t.rows.map t.aligned

theorem map_headRows (t : Table) : t.headRows.flatMap (·.map Prod.snd) = t.headers := by
  unfold headRows
  split
  · rename_i h
    simpa using h.symm
  · simp [map_snd_aligned]

theorem map_bodyRows (t : Table) : t.bodyRows.map (·.map Prod.snd) = t.rows := by
  simp [bodyRows, map_snd_aligned, Function.comp_def]

theorem shownAlike_iff {t u : Table} : t.ShownAlike u
    ↔ t.style = u.style ∧ t.caption = u.caption ∧ t.headRows = u.headRows
      ∧ t.bodyRows = u.bodyRows := by
  constructor
  · rintro ⟨hstyle, hcaption, hheaders, hrows, halign⟩
    refine ⟨hstyle, hcaption, ?_, ?_⟩
    · have haligned : t.aligned t.headers = u.aligned t.headers :=
        aligned_eq_iff.2 fun column hlt => halign column (.inl hlt)
      rw [headRows, headRows, haligned, hheaders]
    · unfold bodyRows
      rw [← hrows, List.map_inj_left]
      exact fun row hrow => aligned_eq_iff.2 fun column hlt => halign column (.inr ⟨row, hrow, hlt⟩)
  · rintro ⟨hstyle, hcaption, hhead, hbody⟩
    have hheaders : t.headers = u.headers := by rw [← map_headRows, hhead, map_headRows]
    have hrows : t.rows = u.rows := by rw [← map_bodyRows, hbody, map_bodyRows]
    refine ⟨hstyle, hcaption, hheaders, hrows, ?_⟩
    rintro column (hlt | ⟨row, hrow, hlt⟩)
    · have hne : t.headers ≠ [] := List.ne_nil_of_length_pos (Nat.zero_lt_of_lt hlt)
      simp only [headRows, ← hheaders, List.isEmpty_iff, hne, ↓reduceIte, List.cons.injEq,
        and_true] at hhead
      exact aligned_eq_iff.1 hhead column hlt
    · unfold bodyRows at hbody
      rw [← hrows, List.map_inj_left] at hbody
      exact aligned_eq_iff.1 (hbody row hrow) column hlt

end Table

namespace Html

theorem tableCells_eq (t : Table) (tag : Tag) : ∀ (cells : List Text) (column : Nat),
    tableCells t tag column cells = (cells.mapIdx fun i cell =>
      (t.alignmentOf (column + i), cell)).flatMap (alignedElement tag)
  | [], _ => rfl
  | cell :: cells, column => by
    rw [tableCells, tableCells_eq t tag cells, List.mapIdx_cons, List.flatMap_cons]
    simp only [Nat.add_assoc, Nat.add_comm 1]
    rfl

theorem row_tableCells (t : Table) (tag : Tag) (row : List Text) :
    element .tr [] (tableCells t tag 0 row) = alignedRow tag (t.aligned row) := by
  simp only [tableCells_eq, Nat.zero_add]
  rfl

theorem tableMarkup_eq (t : Table) : tableMarkup t
    = element .table [.className ("osf-table osf-table-".toList ++ t.style)]
        (optionalElement .caption [] t.caption ++ t.headRows.flatMap alignedHead
          ++ alignedBody t.bodyRows) := by
  have hhead : tableHead t = t.headRows.flatMap alignedHead := by
    unfold tableHead Table.headRows
    split
    · rfl
    · simp [row_tableCells, alignedHead]
  unfold tableMarkup alignedBody
  simp only [hhead, row_tableCells, Table.bodyRows, List.flatMap_map]

theorem alignmentName_injective : Function.Injective Alignment.name := by
  intro a b h
  cases a <;> cases b <;> first | rfl | cases h

theorem isDelimited_alignedRow {tag : Tag} (h : Tag.tr.name ≠ tag.name) :
    IsDelimited Tag.tr.name fun row => readMarkup (alignedRow tag row) := by
  have hcell : IsDelimited tag.name fun cell => readMarkup (alignedElement tag cell) := by
    refine isDelimited_textElement tag (fun cell => [alignmentStyle cell.1]) Prod.snd ?_
    rintro ⟨a, c⟩ ⟨b, d⟩ hvalue rfl
    simp only [List.map_cons, List.map_nil, List.cons.injEq, and_true] at hvalue
    rw [alignmentName_injective (List.append_cancel_left hvalue)]
  simp only [alignedRow, readMarkup_element, readMarkup_flatMap]
  exact hcell.inElement_flatMap (e := (Tag.tr.name, [])) h

theorem isDelimited_alignedHead :
    IsDelimited Tag.thead.name fun row => readMarkup (alignedHead row) := by
  simp only [alignedHead, readMarkup_element]
  exact (isDelimited_alignedRow (by decide)).inElement (Tag.thead.name, [])

theorem isDelimited_alignedBody :
    IsDelimited Tag.tbody.name fun rows => readMarkup (alignedBody rows) := by
  simp only [alignedBody, readMarkup_element, readMarkup_flatMap]
  exact (isDelimited_alignedRow (by decide)).inElement_flatMap (e := (Tag.tbody.name, []))
    (by decide)

theorem shownAlike_of_readMarkup {t u : Table}
    (h : readMarkup (tableMarkup t) = readMarkup (tableMarkup u)) : t.ShownAlike u := by
  have hbody : ∀ t : Table, firstName? (readMarkup (alignedBody t.bodyRows)
      ++ [.closing Tag.table.name]) = some Tag.tbody.name := fun t =>
    isDelimited_alignedBody.begins _ _
  -- behind the caption stands the head or, where there is none, the body
  have hhead : ∀ t : Table, firstName? (t.headRows.flatMap (fun row => readMarkup (alignedHead row))
      ++ (readMarkup (alignedBody t.bodyRows) ++ [.closing Tag.table.name]))
        ≠ some Tag.caption.name := by
    intro t
    rcases isDelimited_alignedHead.firstName?_flatMap_append _ t.headRows with hfirst | hfirst
    · rw [hfirst]
      decide
    · rw [hfirst, hbody]
      decide
  rw [tableMarkup_eq, tableMarkup_eq] at h
  obtain ⟨-, hclass, hrest⟩ := of_readMarkup_element h
  simp only [readMarkup_append, readMarkup_flatMap, List.append_assoc] at hrest
  obtain ⟨hcaption, hrest⟩ := optionalElement_append_inj (hhead t) (hhead u) hrest
  obtain ⟨hheadRows, hrest⟩ := isDelimited_alignedHead.flatMap_append_inj
    (by rw [hbody]; decide) (by rw [hbody]; decide) hrest
  have hbodyRows := (isDelimited_alignedBody.inj hrest).1
  simp only [List.map_cons, List.map_nil, List.cons.injEq, and_true] at hclass
  have hstyle : t.style = u.style := List.append_cancel_left hclass
  exact Table.shownAlike_iff.2 ⟨hstyle, hcaption, hheadRows, hbodyRows⟩

theorem tableMarkup_eq_of_shownAlike {t u : Table} (h : t.ShownAlike u) :
    tableMarkup t = tableMarkup u := by
  obtain ⟨hstyle, hcaption, hhead, hbody⟩ := Table.shownAlike_iff.1 h
  rw [tableMarkup_eq, tableMarkup_eq, hstyle, hcaption, hhead, hbody]

/-! ## Diagrams and listings -/

theorem eq_of_readMarkup_diagram {d e : Diagram}
    (h : readMarkup (diagramMarkup d) = readMarkup (diagramMarkup e)) : d = e := by
  have hpre := isDelimited_text .pre []
  have hbehind : ∀ d : Diagram, firstName? (readMarkup (optionalElement .p
      [.className "osf-diagram-engine".toList] d.engine) ++ (readMarkup (textElement .pre [] d.code)
        ++ [.closing Tag.div.name])) ≠ some Tag.h3.name := by
    intro d
    rcases d.engine with _ | engine
    · exact hpre.firstName?_ne (by decide) _ _
    · exact (isDelimited_text .p _).firstName?_ne (by decide) _ _
  have hcode : ∀ code rest, firstName? (readMarkup (textElement .pre [] code) ++ rest)
      ≠ some Tag.p.name := hpre.firstName?_ne (by decide)
  obtain ⟨-, -, hrest⟩ := of_readMarkup_element h
  simp only [readMarkup_append, List.append_assoc] at hrest
  obtain ⟨htitle, hrest⟩ := optionalElement_append_inj (hbehind d) (hbehind e) hrest
  obtain ⟨hengine, hrest⟩ := optionalElement_append_inj (hcode _ _) (hcode _ _) hrest
  have hcode := (hpre.inj hrest).1
  rcases d with ⟨title, engine, code⟩
  simp_all

/-- The attributes of the code of a listing. -/
def languageAttributes (language : Text) : List Attribute :=
  if language.isEmpty then [] else [.className ("language-".toList ++ language)]

theorem languageAttributes_inj {l m : Text} (h : (languageAttributes l).map Attribute.value
    = (languageAttributes m).map Attribute.value) : l = m := by
  rcases l with _ | ⟨c, l⟩ <;> rcases m with _ | ⟨d, m⟩
  · rfl
  · cases h
  · cases h
  · exact List.append_cancel_left (List.cons.inj h).1

/-- The code of a listing in its two elements. -/
def codeMarkup (listing : Text × Text) : List Markup :=
  element .pre [] (textElement .code (languageAttributes listing.1) listing.2)

theorem isDelimited_codeMarkup :
    IsDelimited Tag.pre.name fun listing => readMarkup (codeMarkup listing) := by
  have hcode : IsDelimited Tag.code.name fun listing : Text × Text =>
      readMarkup (textElement .code (languageAttributes listing.1) listing.2) :=
    isDelimited_textElement .code (fun listing => languageAttributes listing.1) Prod.snd
      fun hl hc => Prod.ext (languageAttributes_inj hl) hc
  simp only [codeMarkup, readMarkup_element]
  exact hcode.inElement (Tag.pre.name, [])

theorem eq_of_readMarkup_listing {l m : Listing}
    (h : readMarkup (listingMarkup l) = readMarkup (listingMarkup m)) : l = m := by
  have hmarkup : ∀ l : Listing, listingMarkup l = element .figure [.className "osf-code".toList]
      (optionalElement .figcaption [.className "osf-code-caption".toList] l.caption
        ++ codeMarkup (l.language, l.code)) := fun _ => rfl
  have hbehind : ∀ listing rest, firstName? (readMarkup (codeMarkup listing) ++ rest)
      ≠ some Tag.figcaption.name := isDelimited_codeMarkup.firstName?_ne (by decide)
  rw [hmarkup, hmarkup] at h
  obtain ⟨-, -, hrest⟩ := of_readMarkup_element h
  simp only [readMarkup_append, List.append_assoc] at hrest
  obtain ⟨hcaption, hrest⟩ := optionalElement_append_inj (hbehind _ _) (hbehind _ _) hrest
  have hcode := (isDelimited_codeMarkup.inj hrest).1
  rcases l with ⟨language, caption, code⟩
  simp_all

/-! ## Blocks -/

theorem shownAlike_of_readMarkup_block (limits limits' : SheetLimits) {a b : Block}
    (ha : a.showsAll = true) (hb : b.showsAll = true)
    (h : readMarkup (blockRendering limits a).markup
      = readMarkup (blockRendering limits' b).markup) : a.ShownAlike b := by
  cases a with
  | table t =>
    cases b with
    | table u => exact shownAlike_of_readMarkup h
    | diagram | code => exact absurd (of_readMarkup_element h).1 (by decide)
    | properties | doc | slide | sheet | chart | unknown => cases hb
  | diagram d =>
    cases b with
    | diagram e => exact eq_of_readMarkup_diagram h
    | table | code => exact absurd (of_readMarkup_element h).1 (by decide)
    | properties | doc | slide | sheet | chart | unknown => cases hb
  | code l =>
    cases b with
    | code m => exact eq_of_readMarkup_listing h
    | table | diagram => exact absurd (of_readMarkup_element h).1 (by decide)
    | properties | doc | slide | sheet | chart | unknown => cases hb
  | properties | doc | slide | sheet | chart | unknown => cases ha

theorem markup_eq_of_shownAlike (limits limits' : SheetLimits) {a b : Block}
    (h : a.ShownAlike b) :
    (blockRendering limits a).markup = (blockRendering limits' b).markup := by
  unfold Block.ShownAlike at h
  split at h
  · exact tableMarkup_eq_of_shownAlike h
  · rw [h]
    rfl
  · rw [h]
    rfl
  · cases h

/-- Tables, diagrams and listings are written alike exactly if they are of one kind and agree in all
that they show. -/
theorem write_eq_iff_shownAlike (limits limits' : SheetLimits) {a b : Block}
    (ha : a.showsAll = true) (hb : b.showsAll = true) :
    Markup.writeAll (blockRendering limits a).markup
        = Markup.writeAll (blockRendering limits' b).markup ↔ a.ShownAlike b := by
  constructor
  · intro h
    exact shownAlike_of_readMarkup_block limits limits' ha hb (readMarkup_eq_of_writeAll h)
  · intro h
    rw [markup_eq_of_shownAlike limits limits' h]

/-- A table with an empty caption, an empty header and rows of different lengths. -/
def raggedTable : Table where
  caption := some []
  headers := [[]]
  alignment := [.right, .center]
  rows := [["<td>".toList, []], []]

theorem write_raggedTable_ne : (Block.table raggedTable).showsAll = true
    ∧ (Block.table { raggedTable with caption := none }).showsAll = true
    ∧ Markup.writeAll (blockRendering {} (.table raggedTable)).markup ≠ Markup.writeAll
      (blockRendering {} (.table { raggedTable with caption := none })).markup := by
  refine ⟨rfl, rfl, fun h => ?_⟩
  have halike := (write_eq_iff_shownAlike {} {} rfl rfl).1 h
  cases halike.caption

end Html

end BlockDocument
