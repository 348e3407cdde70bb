import BlockDocument.Proofs.Flow
import BlockDocument.Proofs.MarkPasses
import BlockDocument.Proofs.ProseGroups
import BlockDocument.Proofs.SheetCells

/-!
# Nesting of inline marks

Marks of the three kinds are placed one kind after the other, each without regard to the tags that
are there already. So an emphasised part may hold the beginning of a strong part and not its end,
and then the tags of the two cross.

That is the only way in which they can fail to be nested (`Inline.isWhole_read_iff`). Tags of
one kind never stand inside each other, so what a marked part leaves open cannot be closed in front
of the part's own closing tag: where the tags are nested, each part is whole in itself.
-/

namespace BlockDocument.Html

namespace Inline

/-- The marks that are open behind tokens, the last one in front, when those given were open
before. There are none if a tag closes another mark than the one opened last. -/
def openMarks? : List Mark → List Token → Option (List Mark)
  | opened, [] => some opened
  | opened, .char _ :: ts => openMarks? opened ts
  | opened, .opening mark :: ts => openMarks? (mark :: opened) ts
  | mark :: opened, .closing closed :: ts =>
    if mark = closed then openMarks? opened ts else none
  | [], .closing _ :: _ => none

/-- Tokens whose tags are nested. -/
def IsWhole (ts : List Token) : Prop := openMarks? [] ts = some []

instance (ts : List Token) : Decidable (IsWhole ts) := decEq (openMarks? [] ts) (some [])

/-- The parts that marks of one kind mark. -/
def parts (mark : Mark) : List Token → List (List Token)
  | [] => []
  | t :: ts =>
    match _found : marked? mark (t :: ts) with
    | some (body, rest) => body :: parts mark rest
    | none => parts mark ts
termination_by ts => ts.length
decreasing_by
  · exact marked?_shortens _found
  · simp

/-- A text in which no emphasised part and no code part cuts another marked part in two. -/
def NoneCut (t : Text) : Prop :=
  (∀ part ∈ parts .em (place .strong (t.map .char)), IsWhole part)
    ∧ ∀ part ∈ parts .code (place .em (place .strong (t.map .char))), IsWhole part

/-- Tokens without the tags of one kind of mark. -/
def Lacks (mark : Mark) (ts : List Token) : Prop := .opening mark ∉ ts ∧ .closing mark ∉ ts

/-! ## Parts -/

theorem eq_of_afterSign? : ∀ {sign : Text} {ts rest : List Token},
    afterSign? sign ts = some rest → ts = sign.map .char ++ rest
  | [], ts, rest, h => by simpa [afterSign?] using h
  | c :: sign, [], rest, h => by simp [afterSign?] at h
  | c :: sign, .char d :: ts, rest, h => by
    simp only [afterSign?] at h
    split at h
    · rename_i hc
      rw [hc, eq_of_afterSign? h]
      rfl
    · simp at h
  | c :: sign, .opening _ :: ts, rest, h => by simp [afterSign?] at h
  | c :: sign, .closing _ :: ts, rest, h => by simp [afterSign?] at h

theorem eq_of_untilSign? {sign : Text} : ∀ {ts body rest : List Token},
    untilSign? sign ts = some (body, rest) → ts = body ++ (sign.map .char ++ rest)
  | [], body, rest, h => by simp [untilSign?] at h
  | t :: ts, body, rest, h => by
    simp only [untilSign?] at h
    split at h
    · rename_i r hr
      simp only [Option.some.injEq, Prod.mk.injEq] at h
      obtain ⟨rfl, rfl⟩ := h
      exact eq_of_afterSign? hr
    · split at h
      · simp at h
      · simp only [Option.map_eq_some_iff, Prod.mk.injEq] at h
        obtain ⟨⟨b, r⟩, hr, rfl, rfl⟩ := h
        exact congrArg (t :: ·) (eq_of_untilSign? hr)

/-- A marked part stands between two of its signs. -/
theorem eq_of_marked? {mark : Mark} {ts body rest : List Token}
    (h : marked? mark ts = some (body, rest)) :
    ts = mark.sign.map .char ++ (body ++ (mark.sign.map .char ++ rest)) := by
  simp only [marked?] at h
  split at h
  · rename_i t more hs
    split at h
    · simp at h
    · simp only [Option.map_eq_some_iff, Prod.mk.injEq] at h
      obtain ⟨⟨b, r⟩, hr, rfl, rfl⟩ := h
      rw [eq_of_afterSign? hs, eq_of_untilSign? hr]
      rfl
  · simp at h

theorem parts_of_marked {mark : Mark} {ts body rest : List Token}
    (h : marked? mark ts = some (body, rest)) : parts mark ts = body :: parts mark rest := by
  cases ts with
  | nil =>
    obtain ⟨c, sign, hs, -⟩ := mark_sign mark
    unfold marked? at h
    rw [hs] at h
    cases h
  | cons t ts =>
    rw [parts]
    split
    · rename_i found
      rw [h] at found
      cases found
      rfl
    · rename_i found
      rw [h] at found
      cases found

theorem parts_of_unmarked {mark : Mark} {t : Token} {ts : List Token}
    (h : marked? mark (t :: ts) = none) : parts mark (t :: ts) = parts mark ts := by
  rw [parts]
  split
  · rename_i found
    rw [h] at found
    cases found
  · rfl

theorem mem_of_mem_parts {mark : Mark} {t : Token} {ts part : List Token}
    (hp : part ∈ parts mark ts) (ht : t ∈ part) : t ∈ ts := by
  fun_induction parts mark ts with
  | case1 => simp at hp
  | case2 u us body rest found ih =>
    rw [eq_of_marked? found]
    simp only [List.mem_append]
    rcases List.mem_cons.1 hp with rfl | hp
    · exact .inr (.inl ht)
    · exact .inr (.inr (.inr (ih hp)))
  | case3 u us found ih => exact List.mem_cons_of_mem _ (ih hp)

theorem mem_place {mark : Mark} {t : Token} {ts : List Token} (h : t ∈ place mark ts) :
    t = .opening mark ∨ t = .closing mark ∨ t ∈ ts := by
  fun_induction place mark ts with
  | case1 => simp at h
  | case2 u us body rest found ih =>
    have hts := eq_of_marked? found
    simp only [List.cons_append, List.mem_cons, List.mem_append] at h
    rcases h with h | h | h | h
    · exact .inl h
    · refine .inr (.inr ?_)
      rw [hts]
      simp [h]
    · exact .inr (.inl h)
    · rcases ih h with h | h | h
      · exact .inl h
      · exact .inr (.inl h)
      · refine .inr (.inr ?_)
        rw [hts]
        simp [h]
  | case3 u us found ih =>
    rcases List.mem_cons.1 h with rfl | h
    · exact .inr (.inr List.mem_cons_self)
    · rcases ih h with h | h | h
      · exact .inl h
      · exact .inr (.inl h)
      · exact .inr (.inr (List.mem_cons_of_mem _ h))

theorem lacks_characters (mark : Mark) (t : Text) : Lacks mark (t.map .char) := by
  simp [Lacks]

theorem lacks_place {mark other : Mark} (hm : other ≠ mark) {ts : List Token}
    (h : Lacks other ts) : Lacks other (place mark ts) := by
  constructor
  · intro ht
    rcases mem_place ht with ht | ht | ht
    · exact hm (Token.opening.inj ht)
    · cases ht
    · exact h.1 ht
  · intro ht
    rcases mem_place ht with ht | ht | ht
    · cases ht
    · exact hm (Token.closing.inj ht)
    · exact h.2 ht

/-! ## Open marks -/

theorem openMarks?_append (us : List Token) : ∀ (ts : List Token) (opened : List Mark),
    openMarks? opened (ts ++ us) = (openMarks? opened ts).bind (openMarks? · us)
  | [], _ => rfl
  | .char _ :: ts, opened => openMarks?_append us ts opened
  | .opening mark :: ts, opened => openMarks?_append us ts (mark :: opened)
  | .closing closed :: ts, [] => rfl
  | .closing closed :: ts, mark :: opened => by
    simp only [List.cons_append, openMarks?]
    split
    · exact openMarks?_append us ts opened
    · rfl

theorem openMarks?_characters (us : List Token) (opened : List Mark) : ∀ t : Text,
    openMarks? opened (t.map .char ++ us) = openMarks? opened us
  | [] => rfl
  | _ :: t => openMarks?_characters us opened t

theorem isWhole_of_characters : ∀ (ts : List Token), (∀ t ∈ ts, ∃ c, t = .char c) → IsWhole ts
  | [], _ => rfl
  | .char _ :: ts, h => isWhole_of_characters ts fun t ht => h t (.tail _ ht)
  | .opening mark :: ts, h => by simpa using h (.opening mark) List.mem_cons_self
  | .closing mark :: ts, h => by simpa using h (.closing mark) List.mem_cons_self

/-- What was open before stays open below whatever is opened. -/
theorem openMarks?_of_below (below : List Mark) : ∀ (ts : List Token) {opened after : List Mark},
    openMarks? opened ts = some after → openMarks? (opened ++ below) ts = some (after ++ below)
  | [], opened, after, h => by
    simp only [openMarks?, Option.some.injEq] at h ⊢
    rw [h]
  | .char _ :: ts, opened, after, h => openMarks?_of_below below ts h
  | .opening mark :: ts, opened, after, h => openMarks?_of_below below ts h
  | .closing closed :: ts, [], after, h => by simp [openMarks?] at h
  | .closing closed :: ts, mark :: opened, after, h => by
    simp only [List.cons_append, openMarks?] at h ⊢
    split at h
    · rename_i hm
      rw [if_pos hm]
      exact openMarks?_of_below below ts h
    · simp at h

theorem openMarks?_of_isWhole {ts : List Token} (h : IsWhole ts) (opened : List Mark) :
    openMarks? opened ts = some opened :=
  openMarks?_of_below opened ts h

/-- Tokens without tags of a mark do not close it, so they close nothing below it either. -/
theorem openMarks?_over {mark : Mark} {below : List Mark} : ∀ (ts : List Token),
    Lacks mark ts → ∀ (opened : List Mark) {after : List Mark},
      openMarks? (opened ++ mark :: below) ts = some after →
        ∃ rest, openMarks? opened ts = some rest ∧ after = rest ++ mark :: below
  | [], _, opened, after, h => ⟨opened, rfl, (Option.some.inj h).symm⟩
  | .char _ :: ts, hl, opened, after, h => by
    have hts : Lacks mark ts := by simpa [Lacks] using hl
    exact openMarks?_over ts hts opened h
  | .opening other :: ts, hl, opened, after, h => by
    have hts : mark ≠ other ∧ Lacks mark ts := by simpa [Lacks, and_assoc] using hl
    exact openMarks?_over ts hts.2 (other :: opened) h
  | .closing closed :: ts, hl, [], after, h => by
    have hts : mark ≠ closed := by
      rintro rfl
      exact hl.2 List.mem_cons_self
    simp [openMarks?, hts] at h
  | .closing closed :: ts, hl, other :: opened, after, h => by
    have hts : Lacks mark ts := ⟨fun hm => hl.1 (.tail _ hm), fun hm => hl.2 (.tail _ hm)⟩
    simp only [List.cons_append, openMarks?] at h ⊢
    split at h
    · rename_i hm
      rw [if_pos hm]
      exact openMarks?_over ts hts opened h
    · simp at h

theorem not_mem_openMarks? {mark : Mark} : ∀ (ts : List Token) {opened after : List Mark},
    openMarks? opened ts = some after → .opening mark ∉ ts → mark ∉ opened → mark ∉ after
  | [], opened, after, h, _, ho => Option.some.inj h ▸ ho
  | .char _ :: ts, opened, after, h, ht, ho => by
    have hts : .opening mark ∉ ts := fun hm => ht (.tail _ hm)
    exact not_mem_openMarks? ts h hts ho
  | .opening other :: ts, opened, after, h, ht, ho => by
    have hne : mark ≠ other := by
      rintro rfl
      exact ht List.mem_cons_self
    have hts : .opening mark ∉ ts := fun hm => ht (.tail _ hm)
    refine not_mem_openMarks? ts h hts ?_
    simp [hne, ho]
  | .closing closed :: ts, [], after, h, _, _ => by simp [openMarks?] at h
  | .closing closed :: ts, other :: opened, after, h, ht, ho => by
    have hts : .opening mark ∉ ts := fun hm => ht (.tail _ hm)
    simp only [openMarks?] at h
    split at h
    · exact not_mem_openMarks? ts h hts fun hm => ho (.tail _ hm)
    · simp at h

/-! ## Placing marks -/

/-- Tags around whole parts change nothing about what is open. -/
theorem openMarks?_place {mark : Mark} {ts : List Token}
    (h : ∀ part ∈ parts mark ts, IsWhole part) (opened : List Mark) :
    openMarks? opened (place mark ts) = openMarks? opened ts := by
  fun_induction place mark ts generalizing opened with
  | case1 => rfl
  | case2 t ts body rest found ih =>
    rw [parts_of_marked found] at h
    have hb := openMarks?_of_isWhole (h body List.mem_cons_self)
    have hr := ih (fun part hp => h part (List.mem_cons_of_mem _ hp)) opened
    calc openMarks? opened (.opening mark :: body ++ .closing mark :: place mark rest)
        = (openMarks? (mark :: opened) body).bind
            (openMarks? · (.closing mark :: place mark rest)) := openMarks?_append _ body _
      _ = openMarks? opened (place mark rest) := by
        rw [hb]
        exact if_pos rfl
      _ = (openMarks? opened body).bind (openMarks? · rest) := by
        rw [hb]
        exact hr
      _ = openMarks? opened (t :: ts) := by
        rw [eq_of_marked? found, openMarks?_characters, openMarks?_append]
        exact congrArg _ (funext fun after => (openMarks?_characters rest after _).symm)
  | case3 t ts found ih =>
    rw [parts_of_unmarked found] at h
    cases t with
    | char c => exact ih h opened
    | opening other => exact ih h (other :: opened)
    | closing closed =>
      cases opened with
      | nil => rfl
      | cons other opened =>
        simp only [openMarks?]
        split
        · exact ih h opened
        · rfl

/-- Where the tags are nested after a kind of mark was placed, every part of that kind is whole: it
does not close what was open before it, and what it leaves open would be closed by its own tag. -/
theorem isWhole_of_mem_parts {mark : Mark} {ts : List Token} (hl : Lacks mark ts)
    {opened after : List Mark} (h : openMarks? opened (place mark ts) = some after) :
    ∀ part ∈ parts mark ts, IsWhole part := by
  fun_induction place mark ts generalizing opened with
  | case1 => simp [parts]
  | case2 t ts body rest found ih =>
    have hts := eq_of_marked? found
    have hbody : Lacks mark body := by
      rw [hts] at hl
      simp_all [Lacks]
    have hrest : Lacks mark rest := by
      rw [hts] at hl
      simp_all [Lacks]
    rw [List.cons_append, openMarks?, openMarks?_append, Option.bind_eq_some_iff] at h
    obtain ⟨inside, hi, h⟩ := h
    obtain ⟨left, hleft, rfl⟩ := openMarks?_over body hbody [] hi
    have hleftNil : left = [] := by
      rcases left with _ | ⟨other, left⟩
      · rfl
      · have hne : mark ∉ other :: left := not_mem_openMarks? body hleft hbody.1 (by simp)
        have ho : other ≠ mark := fun he => hne (he ▸ List.mem_cons_self)
        simp [openMarks?, ho] at h
    subst hleftNil
    rw [List.nil_append, openMarks?, if_pos rfl] at h
    rw [parts_of_marked found]
    intro part hp
    rcases List.mem_cons.1 hp with rfl | hp
    · exact hleft
    · exact ih hrest h part hp
  | case3 t ts found ih =>
    have hts : Lacks mark ts := ⟨fun hm => hl.1 (.tail _ hm), fun hm => hl.2 (.tail _ hm)⟩
    rw [parts_of_unmarked found]
    cases t with
    | char c => exact ih hts h
    | opening other => exact ih hts h
    | closing closed =>
      cases opened with
      | nil => simp [openMarks?] at h
      | cons other opened =>
        simp only [openMarks?] at h
        split at h
        · exact ih hts h
        · simp at h

theorem isWhole_place_iff {mark : Mark} {ts : List Token} (hl : Lacks mark ts) :
    IsWhole (place mark ts) ↔ (∀ part ∈ parts mark ts, IsWhole part) ∧ IsWhole ts := by
  constructor
  · intro h
    have hp := isWhole_of_mem_parts hl h
    exact ⟨hp, (openMarks?_place hp []).symm.trans h⟩
  · rintro ⟨hp, h⟩
    exact (openMarks?_place hp []).trans h

/-- The tags of a text with inline marks are nested exactly if no part cuts another in two. -/
theorem isWhole_read_iff (t : Text) : IsWhole (read t) ↔ NoneCut t := by
  have hchar : ∀ token ∈ t.map Token.char, ∃ c, token = .char c := by simp
  have hstrong : IsWhole (place .strong (t.map .char)) := by
    refine (isWhole_place_iff (lacks_characters _ t)).2 ⟨fun part hp => ?_, ?_⟩
    · exact isWhole_of_characters _ fun token ht => hchar token (mem_of_mem_parts hp ht)
    · exact isWhole_of_characters _ hchar
  have hem : Lacks .em (place .strong (t.map .char)) :=
    lacks_place (by decide) (lacks_characters _ t)
  have hcode : Lacks .code (place .em (place .strong (t.map .char))) :=
    lacks_place (by decide) (lacks_place (by decide) (lacks_characters _ t))
  unfold read NoneCut
  rw [isWhole_place_iff hcode, isWhole_place_iff hem]
  exact ⟨fun h => ⟨h.2.1, h.1⟩, fun h => ⟨h.2, h.1, hstrong⟩⟩

end Inline

/-! ## Tags of prose -/

theorem Mark.tagName_injective {mark other : Mark} (h : mark.tag.name = other.tag.name) :
    mark = other := by
  cases mark <;> cases other <;> first | rfl | exact absurd h (by decide)

open Inline in
/-- Inside other elements the tags of tokens are nested as far as the marks are. -/
theorem Lexeme.nests_tokens {outer : List Text}
    (ho : ∀ mark : Mark, outer.head? ≠ some mark.tag.name)
    (ls : List Lexeme) : ∀ (opened : List Mark) (ts : List Token),
      nests (opened.map (·.tag.name) ++ outer) ((ts.map Token.markup).flatMap ofMarkup ++ ls)
        = (openMarks? opened ts).any fun after => nests (after.map (·.tag.name) ++ outer) ls
  | _, [] => rfl
  | opened, .char c :: ts => by
    have ih := nests_tokens ho ls opened ts
    rcases ofChar_cases c with ⟨name, -, hc, -⟩ | ⟨-, hc, -⟩
    · simpa [Token.markup, ofMarkup, hc, nests, openMarks?] using ih
    · simpa [Token.markup, ofMarkup, hc, nests, openMarks?] using ih
  | opened, .opening mark :: ts => nests_tokens ho ls (mark :: opened) ts
  | mark :: opened, .closing closed :: ts => by
    have ih := nests_tokens ho ls opened ts
    by_cases h : mark = closed
    · simpa [Token.markup, ofMarkup, nests, openMarks?, h] using ih
    · have hn : mark.tag.name ≠ closed.tag.name := fun hn => h (Mark.tagName_injective hn)
      simp [Token.markup, ofMarkup, nests, openMarks?, h, hn]
  | [], .closing closed :: ts => by
    rcases outer with _ | ⟨name, outer⟩
    · rfl
    · have hn : name ≠ closed.tag.name := fun hn => ho closed (congrArg some hn)
      simp [Token.markup, ofMarkup, nests, openMarks?, hn]

/-- That the tags of markup are nested under a condition, whatever elements it stands in. -/
def NestsIff (ms : List Markup) (p : Prop) : Prop :=
  ∀ (outer : List Text) (ls : List Lexeme),
    Lexeme.nests outer (ms.flatMap Lexeme.ofMarkup ++ ls) = true ↔ p ∧ Lexeme.nests outer ls = true

namespace NestsIff

variable {ms ns content : List Markup} {p q : Prop}

theorem congr (h : NestsIff ms p) (hpq : p ↔ q) : NestsIff ms q :=
  propext hpq ▸ h

theorem nil : NestsIff [] True := fun _ _ => (and_iff_right trivial).symm

theorem append (hm : NestsIff ms p) (hn : NestsIff ns q) : NestsIff (ms ++ ns) (p ∧ q) := by
  intro outer ls
  rw [List.flatMap_append, List.append_assoc, hm, hn, and_assoc]

theorem element (h : NestsIff content p) (tag : Tag) (attributes : List Attribute) :
    NestsIff (Html.element tag attributes content) p := by
  intro outer ls
  rw [Lexeme.ofMarkup_element, List.cons_append, Lexeme.nests, List.append_assoc, h]
  simp [Lexeme.nests]

theorem inlineElement {tag : Tag} (ht : ∀ mark : Mark, tag.name ≠ mark.tag.name) (t : Text) :
    NestsIff (Html.element tag [] (inlineMarkup t)) (Inline.NoneCut t) := by
  intro outer ls
  have ho : ∀ mark : Mark, (tag.name :: outer).head? ≠ some mark.tag.name :=
    fun mark h => ht mark (Option.some.inj h)
  rw [Lexeme.ofMarkup_element, List.cons_append, Lexeme.nests, List.append_assoc,
    ← Inline.isWhole_read_iff]
  have hn := Lexeme.nests_tokens ho ([.closing tag.name] ++ ls) [] (Inline.read t)
  rw [List.map_nil, List.nil_append] at hn
  unfold inlineMarkup Inline.IsWhole
  rw [hn]
  rcases Inline.openMarks? [] (Inline.read t) with _ | _ | ⟨mark, after⟩
  · simp
  · simp [Lexeme.nests]
  · simp [Lexeme.nests, (ht mark).symm]

theorem flatMap {α : Type} {f : α → List Markup} {p : α → Prop} (h : ∀ a, NestsIff (f a) (p a)) :
    ∀ as : List α, NestsIff (as.flatMap f) (∀ a ∈ as, p a)
  | [] => nil.congr (by simp)
  | a :: as => ((h a).append (flatMap h as)).congr List.forall_mem_cons.symm

end NestsIff

/-- The texts of a group that may hold inline marks. -/
def ProseLine.inlineTexts : List ProseLine → List Text
  | [] | blank :: _ => []
  | heading _ content :: _ => [content]
  | plain first :: more => [Text.join [' '] (first :: more.map content)]
  | bullet first :: more | quoted first :: more => first :: more.map content

theorem nestsIff_groupMarkup (group : List ProseLine) :
    NestsIff (ProseLine.groupMarkup group)
      (∀ t ∈ ProseLine.inlineTexts group, Inline.NoneCut t) := by
  have hp : ∀ mark : Mark, Tag.p.name ≠ mark.tag.name := fun mark => by cases mark <;> decide
  have hli : ∀ mark : Mark, Tag.li.name ≠ mark.tag.name := fun mark => by cases mark <;> decide
  rcases group with _ | ⟨line, more⟩
  · exact NestsIff.nil.congr (by simp [ProseLine.inlineTexts])
  · cases line with
    | blank => exact NestsIff.nil.congr (by simp [ProseLine.inlineTexts])
    | heading level content =>
      have hh : ∀ mark : Mark, level.tag.name ≠ mark.tag.name := fun mark => by
        cases level <;> cases mark <;> decide
      exact (NestsIff.inlineElement hh content).congr (by simp [ProseLine.inlineTexts])
    | plain first =>
      exact (NestsIff.inlineElement hp _).congr (by simp [ProseLine.inlineTexts])
    | bullet first => exact (NestsIff.flatMap (NestsIff.inlineElement hli) _).element .ul []
    | quoted first => exact (NestsIff.flatMap (NestsIff.inlineElement hp) _).element .blockquote []

/-- Written prose has all its tags nested, those of inline marks included, exactly if in no text of
its groups an emphasised part or a code part cuts another marked part in two. -/
theorem prose_nests_iff (source : Text) :
    ∃ lexemes, Lexeme.readAll (Markup.writeAll (proseMarkup source)) = some lexemes
      ∧ (Lexeme.nests [] lexemes = true ↔
        ∀ group ∈ ProseLine.groups (proseLines source), ∀ t ∈ ProseLine.inlineTexts group,
          Inline.NoneCut t) := by
  refine ⟨_, Lexeme.readAll_writeAll _, ?_⟩
  have h := NestsIff.flatMap nestsIff_groupMarkup (ProseLine.groups (proseLines source)) [] []
  rw [List.append_nil] at h
  rw [proseMarkup_eq_groupsMarkup]
  exact h.trans (and_iff_left rfl)

/-- Prose whose emphasised part begins inside a strong part and ends behind it. -/
def crossedProse : Text := "**a *b** c*".toList

theorem crossedProse_not_nested :
    ∀ lexemes, Lexeme.readAll (Markup.writeAll (proseMarkup crossedProse)) = some lexemes →
      Lexeme.nests [] lexemes = false := by
  obtain ⟨found, hf, hn⟩ := prose_nests_iff crossedProse
  intro lexemes hl
  rw [hf, Option.some.injEq] at hl
  subst hl
  refine Bool.eq_false_iff.2 fun h => ?_
  have hcut := hn.1 h [.plain crossedProse] (by decide) crossedProse (by decide)
  exact absurd hcut.1 (by decide +kernel)

end BlockDocument.Html
