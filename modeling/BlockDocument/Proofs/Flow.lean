import BlockDocument.Proofs.Lexeme

/-!
# Content that keeps its shape

What a reader meets in content is safe when every tag is one of a fixed table of tags, with fixed
attributes, and nothing else could be taken for a tag or an entity. Tags are nested when each
closing tag closes the tag that was opened last.

`Flow` holds of markup that is put together from text, images, the tags of inline marks in any
order, and whole elements around flow. Read back, flow is safe (`Flow.safe`), and nested once the
tags of inline marks and the images are left out (`Flow.nests`).
-/

namespace BlockDocument.Html

namespace Lexeme

/-- The tags that content may open, each with the names of its attributes. -/
def tagForms : List (Tag × List Text) :=
  [(.a, ["href", "target", "rel"]), (.blockquote, []), (.caption, []), (.code, []),
    (.code, ["class"]), (.div, ["class"]), (.em, []), (.figcaption, ["class"]),
    (.figure, ["class"]), (.h1, []), (.h2, []), (.h3, []), (.li, []), (.ol, []), (.p, []),
    (.p, ["class"]), (.pre, []), (.section, ["class"]), (.span, ["style"]), (.strong, []),
    (.table, []), (.table, ["class"]), (.tbody, []), (.td, []), (.td, ["style"]),
    (.td, ["colspan", "class"]), (.tfoot, []), (.th, []), (.th, ["style"]), (.thead, []),
    (.tr, []), (.ul, [])].map fun form => (form.1, form.2.map String.toList)

/-- The opening tags of content as they are written: their names and those of their attributes. -/
def openingForms : List (Text × List Text) := tagForms.map fun form => (form.1.name, form.2)

/-- The tags that content may hold and that have no closing tag. -/
def voidForms : List (Text × List Text) :=
  [("img", ["src", "alt"])].map fun form => (form.1.toList, form.2.map String.toList)

/-- A value in which no tag begins or ends and that ends nowhere before its quote. -/
structure SafeValue (value : Text) : Prop where
  plain : ∀ c ∈ value, c ∉ ['<', '>', '"', '\'']
  entities : ∀ before after, value = before ++ '&' :: after →
    ∃ name ∈ entityNames, name ++ [';'] <+: after

/-- A lexeme that content may hold. -/
def Safe : Lexeme → Prop
  | char c => c ∉ reserved
  | entity name => name ∈ entityNames
  | opening name attributes =>
    (name, attributes.map (·.1)) ∈ openingForms ∧ ∀ a ∈ attributes, SafeValue a.2
  | closing name => name ∈ openingForms.map (·.1)
  | void name attributes =>
    (name, attributes.map (·.1)) ∈ voidForms ∧ ∀ a ∈ attributes, SafeValue a.2

/-- The names of the tags that need not be nested. -/
def inlineNames : List Text := ["strong", "em", "code", "img"].map String.toList

/-- Whether a lexeme is the tag of an inline mark or an image. -/
def isInline (l : Lexeme) : Bool := l.name?.any inlineNames.contains

/-- Lexemes without the tags of inline marks and the images. -/
def outline (ls : List Lexeme) : List Lexeme := ls.filter fun l => !l.isInline

/-- Whether every closing tag closes what was opened last, the given names being open at first,
the last one in front, and nothing being open in the end. -/
def nests : List Text → List Lexeme → Bool
  | opened, [] => opened.isEmpty
  | opened, opening name _ :: ls => nests (name :: opened) ls
  | name :: opened, closing name' :: ls => name = name' && nests opened ls
  | [], closing _ :: _ => false
  | opened, char _ :: ls | opened, entity _ :: ls | opened, void _ _ :: ls => nests opened ls

theorem entities_escape : ∀ t before after : Text, escape t = before ++ '&' :: after →
    ∃ name ∈ entityNames, name ++ [';'] <+: after
  | [], before, after, h => by simp at h
  | c :: t, before, after, h => by
    rw [escape_cons] at h
    rcases ofChar_cases c with ⟨name, hn, -, he⟩ | ⟨hc, -, he⟩ <;> rw [he] at h
    · rcases before with _ | ⟨b, before⟩
      · simp only [List.cons_append, List.nil_append, List.cons.injEq, true_and] at h
        exact ⟨name, hn, h ▸ List.prefix_append _ _⟩
      · simp only [List.cons_append, List.cons.injEq] at h
        rcases List.append_eq_append_iff.1 h.2 with ⟨more, -, ht⟩ | ⟨more, hb, ht⟩
        · exact entities_escape t more after ht
        · rcases more with _ | ⟨d, more⟩
          · exact entities_escape t [] after ht.symm
          · have hname : ∀ name ∈ entityNames, '&' ∉ name ++ [';'] := by decide
            rw [List.cons_append, List.cons.injEq] at ht
            refine absurd ?_ (hname name hn)
            rw [hb, ← ht.1]
            exact List.mem_append_right _ List.mem_cons_self
    · rcases before with _ | ⟨b, before⟩
      · simp only [List.nil_append, List.singleton_append, List.cons.injEq] at h
        rw [h.1] at hc
        exact absurd (by decide) hc
      · simp only [List.cons_append, List.cons.injEq] at h
        exact entities_escape t before after h.2

theorem safeValue_escape (t : Text) : SafeValue (escape t) where
  plain _ hm hc := not_mem_escape hc t hm
  entities := entities_escape t

theorem safe_ofChar (c : Char) : (ofChar c).Safe := by
  rcases ofChar_cases c with ⟨name, hn, ho, -⟩ | ⟨hc, ho, -⟩
  · rw [ho]
    exact hn
  · rw [ho]
    exact hc

theorem safe_image (url alternative : Text) :
    ∀ l ∈ ofMarkup (.image url alternative), l.Safe := by
  intro l hl
  rw [ofMarkup, List.mem_singleton] at hl
  subst hl
  refine ⟨show ("img".toList, ["src".toList, "alt".toList]) ∈ voidForms by decide, fun a ha => ?_⟩
  simp only [List.mem_cons, List.not_mem_nil, or_false] at ha
  rcases ha with rfl | rfl
  · exact safeValue_escape url
  · exact safeValue_escape alternative

theorem outline_append (ls ms : List Lexeme) : outline (ls ++ ms) = outline ls ++ outline ms :=
  List.filter_append ..

theorem outline_inline (l : Lexeme) (h : l.isInline = true) : outline [l] = [] := by
  simp [outline, h]

theorem outline_other (l : Lexeme) (h : ¬ l.isInline = true) : outline [l] = [l] := by
  simp [outline, h]

theorem nests_text (opened : List Text) (ls : List Lexeme) : ∀ content : Text,
    nests opened (outline (content.map ofChar) ++ ls) = nests opened ls
  | [] => rfl
  | c :: content => by
    rcases ofChar_cases c with ⟨name, -, ho, -⟩ | ⟨-, ho, -⟩
    · rw [List.map_cons, ho]
      exact nests_text opened ls content
    · rw [List.map_cons, ho]
      exact nests_text opened ls content

end Lexeme

/-! ## Flow -/

/-- Whether an element may be opened with the given attributes. -/
def Tag.allows (tag : Tag) (attributes : List Attribute) : Bool :=
  Lexeme.tagForms.contains (tag, attributes.map Attribute.name)

theorem Tag.allows_of_inline {tag : Tag} (h : tag ∈ [Tag.strong, .em, .code]) :
    tag.allows [] = true := by
  have hall : ∀ tag ∈ [Tag.strong, .em, .code], tag.allows [] = true := by decide
  exact hall tag h

theorem Tag.mem_openingForms {tag : Tag} {attributes : List Attribute}
    (h : tag.allows attributes = true) :
    (tag.name, attributes.map Attribute.name) ∈ Lexeme.openingForms :=
  List.mem_map.2 ⟨_, List.contains_iff_mem.1 h, rfl⟩

theorem Lexeme.safe_opening {tag : Tag} {attributes : List Attribute}
    (h : tag.allows attributes = true) :
    (opening tag.name (attributes.map ofAttribute)).Safe := by
  refine ⟨?_, fun a ha => ?_⟩
  · rw [List.map_map]
    exact Tag.mem_openingForms h
  · obtain ⟨b, -, rfl⟩ := List.mem_map.1 ha
    exact safeValue_escape b.value

theorem Lexeme.safe_closing {tag : Tag} {attributes : List Attribute}
    (h : tag.allows attributes = true) : (closing tag.name).Safe :=
  List.mem_map.2 ⟨_, Tag.mem_openingForms h, rfl⟩

namespace Markup

/-- A piece of markup that may stand anywhere: text, an image, or a tag of an inline mark. -/
def IsLoose : Markup → Prop
  | text _ | image _ _ => True
  | opening tag attributes => tag ∈ [Tag.strong, .em, .code] ∧ attributes = []
  | closing tag => tag ∈ [Tag.strong, .em, .code]

end Markup

/-- Markup made of loose pieces and of elements around flow. -/
inductive Flow : List Markup → Prop
  | nil : Flow []
  | loose {m : Markup} {ms : List Markup} : m.IsLoose → Flow ms → Flow (m :: ms)
  | cons {tag : Tag} {attributes : List Attribute} {content ms : List Markup} :
      tag.allows attributes = true → Flow content → Flow ms →
        Flow (element tag attributes content ++ ms)

namespace Flow

theorem append {ms ns : List Markup} (hm : Flow ms) (hn : Flow ns) : Flow (ms ++ ns) := by
  induction hm with
  | nil => exact hn
  | loose h _ ih => exact .loose h ih
  | cons hf hc _ _ ih =>
    rw [List.append_assoc]
    exact .cons hf hc ih

theorem element {tag : Tag} {attributes : List Attribute} {content : List Markup}
    (hf : tag.allows attributes = true) (hc : Flow content) :
    Flow (Html.element tag attributes content) := by
  rw [← List.append_nil (Html.element tag attributes content)]
  exact .cons hf hc .nil

theorem text (content : Text) : Flow [.text content] := .loose trivial .nil

theorem flatMap {α : Type} {f : α → List Markup} : ∀ {as : List α}, (∀ a ∈ as, Flow (f a)) →
    Flow (as.flatMap f)
  | [], _ => .nil
  | a :: as, h => by
    rw [List.flatMap_cons]
    exact (h a List.mem_cons_self).append (flatMap fun b hb => h b (List.mem_cons_of_mem _ hb))

open Lexeme in
/-- A reader of flow meets nothing but what is safe. -/
theorem safe {ms : List Markup} (h : Flow ms) : ∀ l ∈ ms.flatMap ofMarkup, l.Safe := by
  induction h with
  | nil => simp
  | @loose m ms hm _ ih =>
    intro l hl
    rw [List.flatMap_cons, List.mem_append] at hl
    rcases hl with hl | hl
    · cases m with
      | text content =>
        obtain ⟨c, -, rfl⟩ := List.mem_map.1 hl
        exact safe_ofChar c
      | opening tag attributes =>
        obtain ⟨ht, rfl⟩ := hm
        rw [List.mem_singleton.1 hl]
        exact safe_opening (Tag.allows_of_inline ht)
      | closing tag =>
        rw [List.mem_singleton.1 hl]
        exact safe_closing (Tag.allows_of_inline hm)
      | image url alternative => exact safe_image url alternative l hl
    · exact ih l hl
  | @cons tag attributes content ms hf _ _ ihc ih =>
    intro l hl
    simp only [Html.element, List.flatMap_append, List.flatMap_cons, List.flatMap_nil,
      List.append_nil, List.mem_append] at hl
    rcases hl with ((hl | hl) | hl) | hl
    · rw [List.mem_singleton.1 hl]
      exact safe_opening hf
    · exact ihc l hl
    · rw [List.mem_singleton.1 hl]
      exact safe_closing hf
    · exact ih l hl

open Lexeme in
/-- The outline of flow opens and closes its tags in turn, and leaves open what was open. -/
theorem nests {ms : List Markup} (h : Flow ms) : ∀ (opened : List Text) (ls : List Lexeme),
    Lexeme.nests opened (outline (ms.flatMap ofMarkup) ++ ls) = Lexeme.nests opened ls := by
  induction h with
  | nil => exact fun _ _ => rfl
  | @loose m ms hm _ ih =>
    intro opened ls
    rw [List.flatMap_cons, outline_append, List.append_assoc]
    have hin : ∀ tag ∈ [Tag.strong, .em, .code], inlineNames.contains tag.name = true := by decide
    cases m with
    | text content => rw [ofMarkup, nests_text, ih]
    | opening tag attributes =>
      rw [ofMarkup, outline_inline (.opening _ _) (hin tag hm.1), List.nil_append, ih]
    | closing tag => rw [ofMarkup, outline_inline (.closing _) (hin tag hm), List.nil_append, ih]
    | image url alternative => exact ih opened ls
  | @cons tag attributes content ms _ _ _ ihc ih =>
    intro opened ls
    simp only [Html.element, List.flatMap_append, List.flatMap_cons, List.flatMap_nil,
      List.append_nil, outline_append, List.append_assoc, ofMarkup]
    -- an element of an inline kind may also stand as an element: both of its tags are left out
    by_cases hi : inlineNames.contains tag.name = true
    · rw [outline_inline (.opening _ _) hi, outline_inline (.closing _) hi, List.nil_append, ihc,
        List.nil_append, ih]
    · rw [outline_other (.opening _ _) hi, outline_other (.closing _) hi]
      show Lexeme.nests (tag.name :: opened) (_ ++ _) = _
      rw [List.nil_append, ihc]
      show (decide (tag.name = tag.name) && Lexeme.nests opened ([] ++ _)) = _
      rw [List.nil_append, ih, decide_eq_true rfl, Bool.true_and]

end Flow

end BlockDocument.Html
