import BlockDocument.Proofs.MarkNesting

/-!
# What inline marks leave of a text

Placing marks turns signs into tags and touches nothing else. Without its tags a text with inline
marks is the text itself, written without the signs that were used up: two for each part that is
marked, so four stars for a strong part, two for an emphasised one and two backticks for a code part
(`inline_conserves`). That holds whatever signs overlap, as each kind takes its signs from the
characters that the kinds before it have left.
-/

namespace BlockDocument

namespace Text

/-- That a text is made of two others, with the characters of each in their order. -/
inductive Merges : Text → Text → Text → Prop
  | nil : Merges [] [] []
  | left (c : Char) {s r t : Text} : Merges s r t → Merges (c :: s) r (c :: t)
  | right (c : Char) {s r t : Text} : Merges s r t → Merges s (c :: r) (c :: t)

/-- A text without any of the given words, each taken out where it is met from the left. -/
def without (words : List Text) : Text → Text
  | [] => []
  | c :: t =>
    match words.find? (·.isPrefixOf (c :: t)) with
    | some word => without words (t.drop (word.length - 1))
    | none => c :: without words t
termination_by t => t.length
decreasing_by
  · simp only [List.length_drop, List.length_cons]
    omega
  · simp

variable {s r t : Text}

namespace Merges

theorem append_left (h : Merges s r t) : ∀ u : Text, Merges (u ++ s) r (u ++ t)
  | [] => h
  | c :: u => (append_left h u).left c

theorem append_right (h : Merges s r t) : ∀ u : Text, Merges s (u ++ r) (u ++ t)
  | [] => h
  | c :: u => (append_right h u).right c

theorem perm (h : Merges s r t) : t.Perm (s ++ r) := by
  induction h with
  | nil => exact .nil
  | left c _ ih => exact ih.cons c
  | right c _ ih => exact (ih.cons c).trans List.perm_middle.symm

theorem count (h : Merges s r t) (c : Char) : t.count c = s.count c + r.count c := by
  rw [h.perm.count_eq, List.count_append]

/-- What is taken out of a text one after the other can be taken out together. -/
theorem trans {q u : Text} (h : Merges s r t) (h' : Merges t q u) :
    ∃ p, Merges s p u ∧ Merges r q p := by
  induction h' generalizing s r with
  | nil => cases h; exact ⟨[], nil, nil⟩
  | left c _ ih =>
    cases h with
    | left _ h =>
      obtain ⟨p, hs, hr⟩ := ih h
      exact ⟨p, hs.left c, hr⟩
    | right _ h =>
      obtain ⟨p, hs, hr⟩ := ih h
      exact ⟨c :: p, hs.right c, hr.left c⟩
  | right c _ ih =>
    obtain ⟨p, hs, hr⟩ := ih h
    exact ⟨c :: p, hs.right c, hr.right c⟩

/-- Characters that are written as they are can be taken out of what is written. -/
theorem escape (h : Merges s r t) (hr : ∀ c ∈ r, c ∉ Html.Lexeme.reserved) :
    Merges (Html.escape s) r (Html.escape t) := by
  induction h with
  | nil => exact nil
  | left c _ ih => exact (ih hr).append_left (Html.entity c)
  | @right c s r t _ ih =>
    obtain ⟨hc, hrest⟩ := List.forall_mem_cons.1 hr
    have hself : Html.escape [c] = [c] := Html.escape_eq_self (by simpa using hc)
    rw [show c :: t = [c] ++ t from rfl, Html.escape_append, hself]
    exact (ih hrest).right c

end Merges

/-- Words that begin with a character are found nowhere in a text that does not hold it. -/
theorem without_append {words : List Text} {c : Char} (hw : ∀ word ∈ words, word.head? = some c)
    (t : Text) : ∀ {s : Text}, c ∉ s → without words (s ++ t) = s ++ without words t
  | [], _ => rfl
  | d :: s, h => by
    obtain ⟨hne, hs⟩ := not_or.1 (mt List.mem_cons.2 h)
    have hnone : words.find? (·.isPrefixOf (d :: (s ++ t))) = none := by
      refine List.find?_eq_none.2 fun word hm hp => ?_
      obtain ⟨rest, hrest⟩ := List.isPrefixOf_iff_prefix.1 hp
      have hhead := hw word hm
      rcases word with _ | ⟨e, word⟩
      · cases hhead
      · cases hhead
        exact hne (List.head_eq_of_cons_eq hrest)
    rw [List.cons_append, without, hnone]
    exact congrArg (d :: ·) (without_append hw t hs)

theorem without_word {words : List Text} {word : Text} (hne : word ≠ [])
    (hf : words.find? (·.isPrefixOf (word ++ t)) = some word) :
    without words (word ++ t) = without words t := by
  obtain ⟨c, rest, rfl⟩ := List.exists_cons_of_ne_nil hne
  rw [List.cons_append] at hf ⊢
  rw [without, hf]
  simp

end Text

namespace Html

/-- The tags of inline marks as they are written. -/
def markTags : List Text :=
  ["<strong>", "</strong>", "<em>", "</em>", "<code>", "</code>"].map String.toList

/-- The tags of one kind of mark that a reader meets. -/
def tagsOf? (mark : Mark) (html : Text) : Option (List Lexeme) :=
  (Lexeme.readAll html).map (·.filter fun l => l.name? = some mark.tag.name)

/-- That a text with inline marks is the text with some signs taken out of it, with tags between its
characters that open and close in turn, as many of each kind as signs of that kind were used up. -/
structure Conserves (t html kept removed : Text) (number : Mark → Nat) : Prop where
  written : Text.Merges (html.without markTags) removed (escape t)
  decoded : decode? (html.without markTags) = some kept
  merges : Text.Merges kept removed t
  signs : ∀ c ∈ removed, c = '*' ∨ c = '\x60'
  stars : removed.count '*' = 4 * number .strong + 2 * number .em
  backticks : removed.count '\x60' = 2 * number .code
  tags : ∀ mark : Mark, tagsOf? mark html
    = some (List.replicate (number mark) [.opening mark.tag.name [], .closing mark.tag.name]).flatten

namespace Inline

/-- The character that a token is, if it is one. -/
def Token.char? : Token → Option Char
  | .char c => some c
  | .opening _ | .closing _ => none

/-- Whether a token is a tag of the given kind of mark. -/
def Token.isTagOf (mark : Mark) : Token → Bool
  | .char _ => false
  | .opening other | .closing other => other = mark

/-- The characters among tokens. -/
def letters (ts : List Token) : Text := ts.filterMap Token.char?

theorem letters_append (ts us : List Token) : letters (ts ++ us) = letters ts ++ letters us :=
  List.filterMap_append

theorem letters_characters : ∀ t : Text, letters (t.map .char) = t
  | [] => rfl
  | c :: t => congrArg (c :: ·) (letters_characters t)

/-! ## Placing marks of one kind -/

/-- The signs that are used up by marks of one kind. -/
def signsOf (mark : Mark) (ts : List Token) : Text :=
  Text.copies (mark.sign ++ mark.sign) (parts mark ts).length

theorem merges_place (mark : Mark) (ts : List Token) :
    Text.Merges (letters (place mark ts)) (signsOf mark ts) (letters ts) := by
  unfold signsOf
  fun_induction place mark ts with
  | case1 =>
    rw [parts]
    exact .nil
  | case2 t ts body rest found ih =>
    rw [parts_of_marked found, eq_of_marked? found]
    simp only [letters_append, letters_characters]
    rw [List.length_cons, Text.copies, List.append_assoc]
    exact ((ih.append_right mark.sign).append_left (letters body)).append_right mark.sign
  | case3 t ts found ih =>
    rw [parts_of_unmarked found]
    cases t with
    | char c => exact ih.left c
    | opening | closing => exact ih

theorem filter_place_of_ne {mark other : Mark} (h : mark ≠ other) (ts : List Token) :
    (place mark ts).filter (Token.isTagOf other) = ts.filter (Token.isTagOf other) := by
  have hsign : (mark.sign.map Token.char).filter (Token.isTagOf other) = [] := by
    simp [List.filter_map, Function.comp_def, Token.isTagOf]
  fun_induction place mark ts with
  | case1 => rfl
  | case2 t ts body rest found ih =>
    rw [eq_of_marked? found]
    simp [hsign, ih, Token.isTagOf, h]
  | case3 t ts found ih =>
    rw [List.filter_cons, List.filter_cons, ih]

theorem filter_place_self {mark : Mark} {ts : List Token}
    (h : ts.filter (Token.isTagOf mark) = []) :
    (place mark ts).filter (Token.isTagOf mark)
      = (List.replicate (parts mark ts).length [.opening mark, .closing mark]).flatten := by
  fun_induction place mark ts with
  | case1 =>
    rw [parts]
    rfl
  | case2 t ts body rest found ih =>
    rw [eq_of_marked? found] at h
    simp only [List.filter_append, List.append_eq_nil_iff] at h
    obtain ⟨-, hbody, -, hrest⟩ := h
    rw [parts_of_marked found, List.length_cons, List.replicate_succ, List.flatten_cons, ← ih hrest]
    simp [hbody, Token.isTagOf]
  | case3 t ts found ih =>
    have ht : ¬ Token.isTagOf mark t = true := fun ht => by simp [ht] at h
    rw [List.filter_cons_of_neg ht] at h ⊢
    rw [parts_of_unmarked found, ih h]

theorem place_of_parts_eq_nil {mark : Mark} {ts : List Token} (h : parts mark ts = []) :
    place mark ts = ts := by
  fun_induction place mark ts with
  | case1 => rfl
  | case2 t ts body rest found =>
    rw [parts_of_marked found] at h
    cases h
  | case3 t ts found ih =>
    rw [parts_of_unmarked found] at h
    rw [ih h]

/-! ## Placing marks of every kind -/

/-- How many parts of each kind are marked in a text. -/
def number (t : Text) : Mark → Nat
  | .strong => (parts .strong (t.map .char)).length
  | .em => (parts .em (place .strong (t.map .char))).length
  | .code => (parts .code (place .em (place .strong (t.map .char)))).length

theorem filter_characters (mark : Mark) (t : Text) :
    (t.map Token.char).filter (Token.isTagOf mark) = [] := by
  simp [List.filter_map, Function.comp_def, Token.isTagOf]

theorem filter_read (t : Text) (mark : Mark) : (read t).filter (Token.isTagOf mark)
    = (List.replicate (number t mark) [.opening mark, .closing mark]).flatten := by
  have hchars := filter_characters mark t
  unfold read
  cases mark with
  | strong =>
    rw [filter_place_of_ne (by decide), filter_place_of_ne (by decide), filter_place_self hchars]
    rfl
  | em =>
    have hstrong : (place .strong (t.map .char)).filter (Token.isTagOf .em) = [] :=
      (filter_place_of_ne (by decide) _).trans hchars
    rw [filter_place_of_ne (by decide), filter_place_self hstrong]
    rfl
  | code =>
    have hstrong : (place .strong (t.map .char)).filter (Token.isTagOf .code) = [] :=
      (filter_place_of_ne (by decide) _).trans hchars
    have hem : (place .em (place .strong (t.map .char))).filter (Token.isTagOf .code) = [] :=
      (filter_place_of_ne (by decide) _).trans hstrong
    rw [filter_place_self hem]
    rfl

theorem count_copies (c : Char) (t : Text) : ∀ n : Nat, (Text.copies t n).count c = n * t.count c
  | 0 => by simp [Text.copies]
  | n + 1 => by
    rw [Text.copies, List.count_append, count_copies c t n, Nat.succ_mul, Nat.add_comm]

/-- What is left of a text, and the signs that are used up. -/
theorem merges_read (t : Text) :
    ∃ removed, Text.Merges (letters (read t)) removed t
      ∧ ∀ c, removed.count c = number t .strong * (['*', '*', '*', '*'] : Text).count c
        + number t .em * (['*', '*'] : Text).count c
        + number t .code * (['\x60', '\x60'] : Text).count c := by
  have hstrong := merges_place .strong (t.map .char)
  rw [letters_characters] at hstrong
  obtain ⟨both, hboth, hsigns⟩ :=
    (merges_place .em (place .strong (t.map .char))).trans hstrong
  obtain ⟨removed, hremoved, hall⟩ :=
    (merges_place .code (place .em (place .strong (t.map .char)))).trans hboth
  refine ⟨removed, hremoved, fun c => ?_⟩
  -- each kind takes its signs from the characters that the kinds before it have left
  rw [hall.count, hsigns.count]
  simp only [signsOf, count_copies]
  show _ + (_ + _) = _
  unfold number
  simp only [Mark.sign, List.cons_append, List.nil_append]
  omega

theorem signs_read (t : Text) :
    ∃ removed, Text.Merges (letters (read t)) removed t
      ∧ (∀ c ∈ removed, c = '*' ∨ c = '\x60')
      ∧ removed.count '*' = 4 * number t .strong + 2 * number t .em
      ∧ removed.count '\x60' = 2 * number t .code := by
  obtain ⟨removed, hmerges, hcount⟩ := merges_read t
  refine ⟨removed, hmerges, fun c hc => ?_, ?_, ?_⟩
  · by_contra hne
    obtain ⟨hstar, hbacktick⟩ := not_or.1 hne
    have hzero : removed.count c = 0 := by
      simp [hcount, Ne.symm hstar, Ne.symm hbacktick]
    exact List.count_eq_zero.1 hzero hc
  · simp [hcount, Nat.mul_comm]
  · simp [hcount, Nat.mul_comm]

/-! ## Written tokens -/

theorem find?_markTags (mark : Mark) (rest : Text) :
    markTags.find? (·.isPrefixOf ((Token.opening mark).markup.write ++ rest))
        = some (Token.opening mark).markup.write
      ∧ markTags.find? (·.isPrefixOf ((Token.closing mark).markup.write ++ rest))
        = some (Token.closing mark).markup.write := by
  cases mark <;> exact ⟨rfl, rfl⟩

/-- Tags are taken out of what is written, and no character is. -/
theorem without_writeAll : ∀ ts : List Token,
    Text.without markTags (Markup.writeAll (ts.map Token.markup)) = escape (letters ts)
  | [] => by simp [Text.without, letters]
  | t :: ts => by
    have ih := without_writeAll ts
    have hhead : ∀ word ∈ markTags, word.head? = some '<' := by decide
    rw [List.map_cons, Markup.writeAll_cons]
    cases t with
    | char c =>
      have hwrite : (Token.char c).markup.write = escape [c] := rfl
      have hletters : letters (.char c :: ts) = [c] ++ letters ts := rfl
      rw [hwrite, Text.without_append hhead _ (Lexeme.not_mem_escape (by decide) _), ih, hletters,
        escape_append]
    | opening mark =>
      have hne : (Token.opening mark).markup.write ≠ [] := List.cons_ne_nil _ _
      exact (Text.without_word hne (find?_markTags mark _).1).trans ih
    | closing mark =>
      have hne : (Token.closing mark).markup.write ≠ [] := List.cons_ne_nil _ _
      exact (Text.without_word hne (find?_markTags mark _).2).trans ih

/-- The tags that a reader meets are those among the tokens. -/
theorem filter_ofMarkup (mark : Mark) : ∀ ts : List Token,
    ((ts.map Token.markup).flatMap Lexeme.ofMarkup).filter (·.name? = some mark.tag.name)
      = ((ts.filter (Token.isTagOf mark)).map Token.markup).flatMap Lexeme.ofMarkup
  | [] => rfl
  | t :: ts => by
    have ih := filter_ofMarkup mark ts
    have hname : ∀ other : Mark, other.tag.name = mark.tag.name ↔ other = mark :=
      fun other => ⟨Mark.tagName_injective, fun h => h ▸ rfl⟩
    rw [List.map_cons, List.flatMap_cons, List.filter_append, ih]
    cases t with
    | char c =>
      have hc : (Lexeme.ofChar c).name? = none := by
        rcases Lexeme.ofChar_cases c with ⟨n, -, hc, -⟩ | ⟨-, hc, -⟩ <;> rw [hc] <;> rfl
      simp [Token.markup, Lexeme.ofMarkup, Token.isTagOf, hc]
    | opening other =>
      by_cases h : other = mark
      · simp [Token.markup, Lexeme.ofMarkup, Lexeme.name?, Token.isTagOf, h]
      · simp [Token.markup, Lexeme.ofMarkup, Lexeme.name?, Token.isTagOf, h, hname]
    | closing other =>
      by_cases h : other = mark
      · simp [Token.markup, Lexeme.ofMarkup, Lexeme.name?, Token.isTagOf, h]
      · simp [Token.markup, Lexeme.ofMarkup, Lexeme.name?, Token.isTagOf, h, hname]

theorem ofMarkup_pairs (mark : Mark) : ∀ n : Nat,
    (((List.replicate n [Token.opening mark, .closing mark]).flatten).map Token.markup).flatMap
        Lexeme.ofMarkup
      = (List.replicate n [.opening mark.tag.name [], .closing mark.tag.name]).flatten
  | 0 => rfl
  | n + 1 => by
    rw [List.replicate_succ, List.flatten_cons, List.map_append, List.flatMap_append,
      ofMarkup_pairs mark n]
    rfl

end Inline

open Inline

theorem tagsOf?_inlineText (mark : Mark) (t : Text) : tagsOf? mark (inlineText t)
    = some (List.replicate (number t mark)
        [.opening mark.tag.name [], .closing mark.tag.name]).flatten := by
  unfold tagsOf? inlineText inlineMarkup
  rw [Lexeme.readAll_writeAll, Option.map_some, filter_ofMarkup, filter_read, ofMarkup_pairs]

theorem inlineText_of_number {t : Text} (h : ∀ mark, number t mark = 0) :
    inlineText t = escape t := by
  have hstrong := place_of_parts_eq_nil (List.length_eq_zero_iff.1 (h .strong))
  have hem := place_of_parts_eq_nil (List.length_eq_zero_iff.1 (h .em))
  have hcode := place_of_parts_eq_nil (List.length_eq_zero_iff.1 (h .code))
  unfold inlineText inlineMarkup Inline.read
  rw [hcode, hem, hstrong, writeAll_characters]

/-- Text with inline marks conserves the text: it is the text with the signs of its marked parts
taken out and tags put in for them, and the text itself if it has no signs. -/
theorem inline_conserves (t : Text) :
    (∃ kept removed number, Conserves t (inlineText t) kept removed number)
      ∧ ('*' ∉ t → '\x60' ∉ t → inlineText t = escape t) := by
  obtain ⟨removed, hmerges, hsigns, hstars, hbackticks⟩ := signs_read t
  have hreserved : ∀ c ∈ removed, c ∉ Lexeme.reserved := by
    intro c hc
    rcases hsigns c hc with rfl | rfl <;> decide
  have hwithout : (inlineText t).without markTags = escape (letters (Inline.read t)) :=
    without_writeAll (Inline.read t)
  refine ⟨⟨letters (Inline.read t), removed, number t, ?_⟩, fun hstar hbacktick => ?_⟩
  · constructor
    case written => exact hwithout ▸ hmerges.escape hreserved
    case decoded => rw [hwithout, decode?_escape]
    case merges => exact hmerges
    case signs => exact hsigns
    case stars => exact hstars
    case backticks => exact hbackticks
    case tags => exact fun mark => tagsOf?_inlineText mark t
  · have hs := hmerges.count '*'
    have hb := hmerges.count '\x60'
    rw [List.count_eq_zero.2 hstar, hstars] at hs
    rw [List.count_eq_zero.2 hbacktick, hbackticks] at hb
    refine inlineText_of_number fun mark => ?_
    cases mark <;> omega

end Html

end BlockDocument
