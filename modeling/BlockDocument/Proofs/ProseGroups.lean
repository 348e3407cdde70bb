import Mathlib.Data.List.SplitBy
import BlockDocument.Html.Prose

/-!
# Prose as groups of lines

Lines of prose fall into groups: the longest stretches of bullet lines, of quoted lines and of text
lines, and every blank line and every heading on its own. Feeding the lines to a draft one by one
writes the groups in order.

At most one of a draft's three collections holds anything (`Draft.AtMostOneOpen`), so the lines
that a draft still holds are the group that is being read. What the draft has written, together
with what is due for those lines and for the lines to come, is the same before and after a line is
fed (`Draft.total_feed`).
-/

namespace BlockDocument.Html

namespace ProseLine

/-- Whether two lines in a row are in one group. -/
def together : ProseLine → ProseLine → Bool
  | bullet _, bullet _ | quoted _, quoted _ | plain _, plain _ => true
  | _, _ => false

/-- The part of a line that is shown. -/
def content : ProseLine → Text
  | blank => []
  | heading _ content | bullet content | quoted content | plain content => content

/-- A cut of lines into the longest groups. -/
structure IsCut (lines : List ProseLine) (groups : List (List ProseLine)) : Prop where
  flatten : groups.flatten = lines
  nonempty : [] ∉ groups
  together : ∀ group ∈ groups, group.IsChain fun a b => together a b
  apart : groups.IsChain fun g h => ∃ hg hh, ProseLine.together (g.getLast hg) (h.head hh) = false

/-- Lines cut into the longest groups. -/
def groups (lines : List ProseLine) : List (List ProseLine) := lines.splitBy together

theorem isCut_iff {lines : List ProseLine} {cut : List (List ProseLine)} :
    IsCut lines cut ↔ groups lines = cut := by
  unfold groups
  rw [List.splitBy_eq_iff]
  constructor
  · exact fun h => ⟨h.flatten.symm, h.nonempty, h.together, h.apart⟩
  · exact fun h => ⟨h.1.symm, h.2.1, h.2.2.1, h.2.2.2⟩

/-- A group as markup. The class of its first line is that of all its lines. -/
def groupMarkup : List ProseLine → List Markup
  | [] | blank :: _ => []
  | heading level content :: _ => headingMarkup level content
  | plain first :: more => paragraphMarkup (first :: more.map content)
  | bullet first :: more => bulletMarkup (first :: more.map content)
  | quoted first :: more => quotationMarkup (first :: more.map content)

/-- Lines as the markup of their groups. -/
def groupsMarkup (lines : List ProseLine) : List Markup := (groups lines).flatMap groupMarkup

@[simp]
theorem groupsMarkup_nil : groupsMarkup [] = [] := rfl

theorem groupsMarkup_map {line : Text → ProseLine} (h : ∀ s t, together (line s) (line t) = true)
    {ts : List Text} (hn : ts ≠ []) : groupsMarkup (ts.map line) = groupMarkup (ts.map line) := by
  have hc : (ts.map line).IsChain fun a b => together a b := by
    refine (List.pairwise_map.2 ?_).isChain
    exact List.pairwise_of_forall h
  unfold groupsMarkup groups
  rw [List.splitBy_of_isChain (by simpa using hn) hc, List.flatMap_singleton]

theorem groupsMarkup_append_cons {lines : List ProseLine} {next : ProseLine}
    (h : ∀ line ∈ lines, together line next = false) (more : List ProseLine) :
    groupsMarkup (lines ++ next :: more) = groupsMarkup lines ++ groupsMarkup (next :: more) := by
  unfold groupsMarkup groups
  rw [List.splitBy_append_cons, List.flatMap_append]
  exact fun line hl => h line (List.mem_of_mem_getLast? hl)

theorem groupsMarkup_alone {line : ProseLine} (h : ∀ b, together line b = false)
    (more : List ProseLine) :
    groupsMarkup (line :: more) = groupMarkup [line] ++ groupsMarkup more := by
  unfold groupsMarkup groups
  rw [← List.singleton_append, List.splitBy_append, List.flatMap_append,
    List.splitBy_of_isChain (by simp) (by simp), List.flatMap_singleton]
  intro a ha b _
  cases ha
  exact h b

end ProseLine

/-! ## Drafts -/

namespace Draft

open ProseLine

/-- That at most one collection of a draft holds anything. -/
def AtMostOneOpen (d : Draft) : Prop :=
  d.bullets = [] ∧ d.quotation = [] ∨ d.paragraph = [] ∧ d.quotation = []
    ∨ d.paragraph = [] ∧ d.bullets = []

/-- The lines that a draft still holds. -/
def held (d : Draft) : List ProseLine :=
  d.paragraph.map .plain ++ d.bullets.map .bullet ++ d.quotation.map .quoted

theorem forall_held {d : Draft} {p : ProseLine → Prop} :
    (∀ line ∈ d.held, p line) ↔ (∀ t ∈ d.paragraph, p (.plain t)) ∧ (∀ t ∈ d.bullets, p (.bullet t))
      ∧ ∀ t ∈ d.quotation, p (.quoted t) := by
  unfold held
  rw [List.forall_mem_append, List.forall_mem_append, List.forall_mem_map, List.forall_mem_map,
    List.forall_mem_map, and_assoc]

/-- What a draft has written, and what is due for the lines that it holds and for more lines. -/
def total (d : Draft) (more : List ProseLine) : List Markup :=
  d.written ++ groupsMarkup (d.held ++ more)

@[simp]
theorem closeParagraph_eq (d : Draft) :
    d.closeParagraph = { d with
      written := d.written ++ groupsMarkup (d.paragraph.map .plain), paragraph := [] } := by
  unfold closeParagraph
  rcases d with ⟨w, _ | ⟨t, ts⟩, b, q⟩
  · simp
  · rw [groupsMarkup_map (fun _ _ => rfl) (by simp)]
    simp [write, groupMarkup, List.map_map, Function.comp_def, content]

@[simp]
theorem closeBullets_eq (d : Draft) :
    d.closeBullets = { d with
      written := d.written ++ groupsMarkup (d.bullets.map .bullet), bullets := [] } := by
  unfold closeBullets
  rcases d with ⟨w, p, _ | ⟨t, ts⟩, q⟩
  · simp
  · rw [groupsMarkup_map (fun _ _ => rfl) (by simp)]
    simp [write, groupMarkup, List.map_map, Function.comp_def, content]

@[simp]
theorem closeQuotation_eq (d : Draft) :
    d.closeQuotation = { d with
      written := d.written ++ groupsMarkup (d.quotation.map .quoted), quotation := [] } := by
  unfold closeQuotation
  rcases d with ⟨w, p, b, _ | ⟨t, ts⟩⟩
  · simp
  · rw [groupsMarkup_map (fun _ _ => rfl) (by simp)]
    simp [write, groupMarkup, List.map_map, Function.comp_def, content]

@[simp]
theorem close_eq (d : Draft) :
    d.close = { written := d.written ++ groupsMarkup (d.paragraph.map .plain)
      ++ groupsMarkup (d.bullets.map .bullet) ++ groupsMarkup (d.quotation.map .quoted) } := by
  simp only [close, closeParagraph_eq, closeBullets_eq, closeQuotation_eq]

theorem atMostOneOpen_feed (d : Draft) (line : ProseLine) : (d.feed line).AtMostOneOpen := by
  cases line with
  | blank | bullet | quoted | plain => simp [feed, AtMostOneOpen]
  | heading => simp [feed, write, AtMostOneOpen]

/-- Closing a draft writes what is due for the lines that it holds. -/
theorem written_close {d : Draft} (h : d.AtMostOneOpen) : d.close.written = d.total [] := by
  rw [close_eq]
  rcases d with ⟨w, p, b, q⟩
  rcases h with ⟨rfl, rfl⟩ | ⟨rfl, rfl⟩ | ⟨rfl, rfl⟩ <;>
    simp [total, held]

/-- A line that goes on with none of the lines held makes them due as if the draft were closed. -/
theorem total_cons_of_apart {d : Draft} (h : d.AtMostOneOpen) {line : ProseLine}
    (hl : ∀ a ∈ d.held, together a line = false) (more : List ProseLine) :
    d.total (line :: more) = d.close.written ++ groupsMarkup (line :: more) := by
  rw [written_close h, total, total, groupsMarkup_append_cons hl, List.append_nil,
    List.append_assoc]

theorem together_alone {line : ProseLine} (h : ∀ b, together line b = false) (a : ProseLine) :
    together a line = false := by
  have := h a
  cases a <;> cases line <;> simp_all [together]

/-- Feeding a line that is a group on its own. -/
theorem total_feed_alone {d : Draft} (h : d.AtMostOneOpen) {line : ProseLine}
    (hl : ∀ b, together line b = false)
    (hf : d.feed line = d.close.write (groupMarkup [line])) (more : List ProseLine) :
    (d.feed line).total more = d.total (line :: more) := by
  rw [total_cons_of_apart h (fun a _ => together_alone hl a), groupsMarkup_alone hl, hf]
  simp [total, held, write]

/-- Feeding a line that begins a group. -/
theorem total_feed_apart {d : Draft} (h : d.AtMostOneOpen) {line : ProseLine}
    (hl : ∀ a ∈ d.held, together a line = false)
    (hw : (d.feed line).written = d.close.written) (hh : (d.feed line).held = [line])
    (more : List ProseLine) : (d.feed line).total more = d.total (line :: more) := by
  rw [total_cons_of_apart h hl, total, hw, hh, List.singleton_append]

/-- Feeding a line that joins the lines held. -/
theorem total_feed_joined {d : Draft} {line : ProseLine}
    (hw : (d.feed line).written = d.written) (hh : (d.feed line).held = d.held ++ [line])
    (more : List ProseLine) : (d.feed line).total more = d.total (line :: more) := by
  rw [total, total, hw, hh, List.append_assoc, List.singleton_append]

/-- Feeding a line keeps what is written and due. -/
theorem total_feed {d : Draft} (h : d.AtMostOneOpen) (line : ProseLine) (more : List ProseLine) :
    (d.feed line).total more = d.total (line :: more) := by
  cases line with
  | blank =>
    refine total_feed_alone h (fun _ => rfl) ?_ more
    simp [feed, write, groupMarkup]
  | heading level content => exact total_feed_alone h (fun _ => rfl) rfl more
  | bullet content =>
    -- either nothing but bullets is held, or no bullet is and what is held gets closed
    have hc : d.bullets = [] ∨ d.paragraph = [] ∧ d.quotation = [] :=
      h.elim (.inl ·.1) (·.elim .inr (.inl ·.2))
    rcases hc with hb | ⟨hp, hq⟩
    · have hl : ∀ held ∈ d.held, together held (.bullet content) = false :=
        forall_held.2 ⟨fun _ _ => rfl, by simp [hb], fun _ _ => rfl⟩
      exact total_feed_apart h hl (by simp [feed, hb]) (by simp [feed, held, hb]) more
    · exact total_feed_joined (by simp [feed, hp, hq]) (by simp [feed, held, hp, hq]) more
  | quoted content =>
    have hc : d.quotation = [] ∨ d.paragraph = [] ∧ d.bullets = [] :=
      h.elim (.inl ·.2) (·.elim (.inl ·.2) .inr)
    rcases hc with hq | ⟨hp, hb⟩
    · have hl : ∀ held ∈ d.held, together held (.quoted content) = false :=
        forall_held.2 ⟨fun _ _ => rfl, fun _ _ => rfl, by simp [hq]⟩
      exact total_feed_apart h hl (by simp [feed, hq]) (by simp [feed, held, hq]) more
    · exact total_feed_joined (by simp [feed, hp, hb]) (by simp [feed, held, hp, hb]) more
  | plain content =>
    have hc : d.paragraph = [] ∨ d.bullets = [] ∧ d.quotation = [] :=
      h.elim .inr (·.elim (.inl ·.1) (.inl ·.1))
    rcases hc with hp | ⟨hb, hq⟩
    · have hl : ∀ held ∈ d.held, together held (.plain content) = false :=
        forall_held.2 ⟨by simp [hp], fun _ _ => rfl, fun _ _ => rfl⟩
      exact total_feed_apart h hl (by simp [feed, hp]) (by simp [feed, held, hp]) more
    · exact total_feed_joined (by simp [feed, hb, hq]) (by simp [feed, held, hb, hq]) more

theorem atMostOneOpen_foldl : ∀ (lines : List ProseLine) {d : Draft}, d.AtMostOneOpen →
    (lines.foldl feed d).AtMostOneOpen
  | [], _, h => h
  | line :: lines, d, _ => atMostOneOpen_foldl lines (atMostOneOpen_feed d line)

theorem total_foldl : ∀ (lines : List ProseLine) {d : Draft}, d.AtMostOneOpen →
    (lines.foldl feed d).total [] = d.total lines
  | [], _, _ => rfl
  | line :: lines, d, h => by
    rw [List.foldl_cons, total_foldl lines (atMostOneOpen_feed d line), total_feed h]

end Draft

/-- Prose is the markup of its groups. -/
theorem proseMarkup_eq_groupsMarkup (source : Text) :
    proseMarkup source = ProseLine.groupsMarkup (proseLines source) := by
  have h : Draft.AtMostOneOpen {} := .inl ⟨rfl, rfl⟩
  unfold proseMarkup
  rw [Draft.written_close (Draft.atMostOneOpen_foldl _ h), Draft.total_foldl _ h]
  rfl

/-! ## Groups as text -/

/-- Text with inline marks as it is written. -/
def inlineText (t : Text) : Text := Markup.writeAll (inlineMarkup t)

/-- A group as it is written: nothing for a blank line, a heading, a paragraph of all its lines, or
an element with an element for each of its lines. -/
def ProseLine.groupText : List ProseLine → Text
  | [] | blank :: _ => []
  | heading level content :: _ => Markup.writeAll (headingMarkup level content)
  | plain first :: more =>
    "<p>".toList ++ inlineText (Text.join [' '] (first :: more.map content)) ++ "</p>".toList
  | bullet first :: more =>
    "<ul>".toList ++ (first :: more.map content).flatMap
      (fun item => "<li>".toList ++ inlineText item ++ "</li>".toList) ++ "</ul>".toList
  | quoted first :: more =>
    "<blockquote>".toList ++ (first :: more.map content).flatMap
      (fun line => "<p>".toList ++ inlineText line ++ "</p>".toList) ++ "</blockquote>".toList

theorem writeAll_groupMarkup (group : List ProseLine) :
    Markup.writeAll (ProseLine.groupMarkup group) = ProseLine.groupText group := by
  rcases group with _ | ⟨line, more⟩
  · rfl
  · cases line with
    | blank => rfl
    | heading level content => rfl
    | plain first =>
      refine (writeAll_element .p [] _).trans ?_
      rw [← List.append_assoc]
      rfl
    | bullet first =>
      refine (writeAll_element .ul [] _).trans ?_
      rw [writeAll_flatMap]
      simp only [writeAll_element, ← List.append_assoc]
      rfl
    | quoted first =>
      refine (writeAll_element .blockquote [] _).trans ?_
      rw [writeAll_flatMap]
      simp only [writeAll_element, ← List.append_assoc]
      rfl

/-- Prose is written group by group, in the order of its lines, each line being in one group; and
while lines are read at most one collection of the draft holds anything. -/
theorem prose_written_by_groups (source : Text) :
    ProseLine.IsCut (proseLines source) (ProseLine.groups (proseLines source))
      ∧ Markup.writeAll (proseMarkup source)
        = (ProseLine.groups (proseLines source)).flatMap ProseLine.groupText
      ∧ ∀ n, (((proseLines source).take n).foldl Draft.feed {}).AtMostOneOpen := by
  refine ⟨ProseLine.isCut_iff.2 rfl, ?_, fun n => ?_⟩
  · rw [proseMarkup_eq_groupsMarkup, ProseLine.groupsMarkup, writeAll_flatMap]
    simp only [writeAll_groupMarkup]
  · exact Draft.atMostOneOpen_foldl _ (.inl ⟨rfl, rfl⟩)

end BlockDocument.Html
