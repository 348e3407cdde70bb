import BlockDocument.Html.Inline
import BlockDocument.Proofs.Lexeme

/-!
# Inline marks as passes over written text

Marks are placed among the tokens of a text before anything is escaped. Placing them afterwards, one
kind at a time, among the characters of what is written so far comes to the same
(`inlineMarkup_written_by_passes`): neither an entity nor a tag holds a character of a sign or a
line feed, so a mark begins, ends and is broken off at the same places.
-/

namespace BlockDocument.Html

namespace Inline

/-- The characters that decide where marks are placed. -/
def markCharacters : Text := ['*', '\x60', '\n']

/-- The tokens as they are written, each character being a token of its own. -/
def spell (ts : List Token) : List Token :=
  (Markup.writeAll (ts.map Token.markup)).map .char

/-- A character as it is, or a tag as it is written. -/
def Token.plainText : Token → Text
  | .char c => [c]
  | t => t.markup.write

/-- Characters as they are, and tags as they are written. -/
def plainText (ts : List Token) : Text := ts.flatMap Token.plainText

/-- Whether no token decides where marks are placed. -/
def IsQuiet (ts : List Token) : Prop := ∀ t ∈ ts, ∀ c ∈ markCharacters, t ≠ .char c

/-- Whether no token is a character of a mark's sign. -/
def IsSignless (mark : Mark) (ts : List Token) : Prop := ∀ t ∈ ts, ∀ c ∈ mark.sign, t ≠ .char c

theorem spell_nil : spell [] = [] := rfl

theorem spell_cons (t : Token) (ts : List Token) : spell (t :: ts) = spell [t] ++ spell ts := by
  unfold spell
  rw [List.map_cons, List.map_singleton, Markup.writeAll_cons, Markup.writeAll_cons,
    Markup.writeAll_nil, List.append_nil, List.map_append]

theorem spell_append : ∀ ts us : List Token, spell (ts ++ us) = spell ts ++ spell us
  | [], _ => rfl
  | t :: ts, us => by
    rw [List.cons_append, spell_cons, spell_append ts us, spell_cons t ts, List.append_assoc]

theorem plainText_append (ts us : List Token) :
    plainText (ts ++ us) = plainText ts ++ plainText us :=
  List.flatMap_append

theorem plainText_cons (t : Token) (ts : List Token) :
    plainText (t :: ts) = t.plainText ++ plainText ts :=
  List.flatMap_cons

theorem plainText_characters : ∀ t : Text, plainText (t.map .char) = t
  | [] => rfl
  | c :: t => congrArg (c :: ·) (plainText_characters t)

theorem plainText_spell (ts : List Token) :
    plainText (spell ts) = Markup.writeAll (ts.map Token.markup) :=
  plainText_characters _

theorem isQuiet_map {t : Text} (h : t.filter (· ∈ markCharacters) = []) :
    IsQuiet (t.map .char) := by
  intro token ht c hc hd
  obtain ⟨d, hm, rfl⟩ := List.mem_map.1 ht
  cases hd
  exact List.filter_eq_nil_iff.1 h c hm (decide_eq_true hc)

theorem spell_char (c : Char) : spell [.char c] = (entity c).map .char := by
  unfold spell
  rw [List.map_singleton, Markup.writeAll_cons, Markup.writeAll_nil, List.append_nil]
  exact congrArg (List.map Token.char) (List.append_nil _)

theorem spell_opening (mark : Mark) :
    spell [.opening mark] = ('<' :: mark.tag.name ++ ">".toList).map .char := by
  cases mark <;> rfl

theorem spell_closing (mark : Mark) :
    spell [.closing mark] = ("</".toList ++ mark.tag.name ++ ">".toList).map .char := by
  cases mark <;> rfl

/-- A token is written as itself, or neither it nor what it is written as decides anything. -/
theorem spell_cases (t : Token) :
    spell [t] = [t] ∨ IsQuiet [t] ∧ IsQuiet (spell [t]) ∧ ∃ u us, spell [t] = u :: us := by
  cases t with
  | char c =>
    rw [spell_char]
    rcases Lexeme.ofChar_cases c with ⟨name, hn, -, he⟩ | ⟨-, -, he⟩
    · have hname : ∀ name ∈ Lexeme.entityNames,
          ('&' :: name ++ [';']).filter (· ∈ markCharacters) = [] := by decide
      have hc : c ∉ markCharacters := by
        intro hc
        simp only [markCharacters, List.mem_cons, List.not_mem_nil, or_false] at hc
        rcases hc with rfl | rfl | rfl <;> exact absurd (List.head_eq_of_cons_eq he) (by decide)
      rw [he]
      refine .inr ⟨?_, isQuiet_map (hname name hn), _, _, rfl⟩
      intro t ht d hd hc'
      cases (List.mem_singleton.1 ht).symm.trans hc'
      exact hc hd
    · exact .inl (by rw [he, List.map_singleton])
  | opening mark =>
    rw [spell_opening]
    refine .inr ⟨fun t ht c _ hc => ?_, isQuiet_map ?_, _, _, rfl⟩
    · cases (List.mem_singleton.1 ht).symm.trans hc
    · cases mark <;> decide
  | closing mark =>
    rw [spell_closing]
    refine .inr ⟨fun t ht c _ hc => ?_, isQuiet_map ?_, _, _, rfl⟩
    · cases (List.mem_singleton.1 ht).symm.trans hc
    · cases mark <;> decide

/-! ## Passing over what decides nothing -/

theorem mark_sign (mark : Mark) : ∃ c sign, mark.sign = c :: sign ∧ c ∈ markCharacters
    ∧ ∀ d ∈ sign, d ∈ markCharacters := by
  cases mark with
  | strong => exact ⟨'*', ['*'], rfl, by simp [markCharacters]⟩
  | em => exact ⟨'*', [], rfl, by simp [markCharacters]⟩
  | code => exact ⟨'\x60', [], rfl, by simp [markCharacters]⟩

theorem IsQuiet.isSignless {ts : List Token} (h : IsQuiet ts) (mark : Mark) :
    IsSignless mark ts := by
  obtain ⟨c, sign, hs, hc, hsign⟩ := mark_sign mark
  intro t ht d hd
  rw [hs] at hd
  exact h t ht d (List.forall_mem_cons.2 ⟨hc, hsign⟩ d hd)

theorem afterSign?_eq_none {c : Char} {t : Token} (ht : t ≠ .char c) (sign : Text)
    (ts : List Token) : afterSign? (c :: sign) (t :: ts) = none := by
  cases t with
  | char d =>
    have hcd : c ≠ d := fun h => ht (h ▸ rfl)
    rw [afterSign?, if_neg hcd]
  | opening | closing => rfl

theorem afterSign?_signless {mark : Mark} {t : Token} (ht : IsSignless mark [t])
    (ts : List Token) : afterSign? mark.sign (t :: ts) = none := by
  obtain ⟨c, sign, hs, -⟩ := mark_sign mark
  rw [IsSignless, hs] at ht
  rw [hs]
  exact afterSign?_eq_none (ht t (.head _) c (.head _)) sign ts

theorem untilSign?_append (mark : Mark) (ts : List Token) : ∀ {us : List Token}, IsQuiet us →
    untilSign? mark.sign (us ++ ts)
      = (untilSign? mark.sign ts).map fun parts => (us ++ parts.1, parts.2)
  | [], _ => by simp
  | u :: us, h => by
    have hu : IsQuiet [u] := fun t ht => h t (by simp_all)
    have hn : u ≠ .char '\n' := h u (.head _) '\n' (by simp [markCharacters])
    rw [List.cons_append, untilSign?, afterSign?_signless (hu.isSignless mark)]
    simp only [if_neg hn]
    rw [untilSign?_append mark ts fun t ht => h t (by simp [ht]), Option.map_map]
    rfl

theorem place_of_marked {mark : Mark} {ts body rest : List Token}
    (h : marked? mark ts = some (body, rest)) :
    place mark ts = .opening mark :: body ++ .closing mark :: place mark rest := by
  cases ts with
  | nil =>
    obtain ⟨c, sign, hs, -⟩ := mark_sign mark
    unfold marked? at h
    rw [hs] at h
    cases h
  | cons t ts =>
    rw [place]
    split
    · rename_i found
      rw [h] at found
      cases found
      rfl
    · rename_i found
      rw [h] at found
      cases found

theorem place_of_unmarked {mark : Mark} {t : Token} {ts : List Token}
    (h : marked? mark (t :: ts) = none) : place mark (t :: ts) = t :: place mark ts := by
  rw [place]
  split
  · rename_i found
    rw [h] at found
    cases found
  · rfl

theorem place_append {mark : Mark} (ts : List Token) : ∀ {us : List Token}, IsSignless mark us →
    place mark (us ++ ts) = us ++ place mark ts
  | [], _ => rfl
  | u :: us, h => by
    obtain ⟨hu, hus⟩ := List.forall_mem_cons.1 h
    have hm : marked? mark (u :: (us ++ ts)) = none := by
      unfold marked?
      rw [afterSign?_signless (List.forall_mem_singleton.2 hu)]
    rw [List.cons_append, place_of_unmarked hm, place_append ts hus]
    rfl

/-! ## Placing marks among written characters -/

theorem afterSign?_spell : ∀ {sign : Text} {ts : List Token}, (∀ c ∈ sign, c ∈ markCharacters) →
    afterSign? sign (spell ts) = (afterSign? sign ts).map spell
  | [], ts, _ => by rw [afterSign?, afterSign?, Option.map_some]
  | c :: sign, [], _ => rfl
  | c :: sign, t :: ts, h => by
    obtain ⟨hc, hs⟩ := List.forall_mem_cons.1 h
    rw [spell_cons]
    rcases spell_cases t with hsame | ⟨ht, hquiet, u, us, hu⟩
    · rw [hsame, List.singleton_append]
      cases t with
      | char d =>
        rw [afterSign?, afterSign?]
        split
        · exact afterSign?_spell hs
        · rfl
      | opening | closing => rfl
    · have hq : IsQuiet [u] := fun t ht => hquiet t (by rw [hu]; simp_all)
      rw [hu, List.cons_append, afterSign?_eq_none (hq u (.head _) c hc),
        afterSign?_eq_none (ht t (.head _) c hc), Option.map_none]

theorem afterSign?_mark_spell (mark : Mark) (ts : List Token) :
    afterSign? mark.sign (spell ts) = (afterSign? mark.sign ts).map spell := by
  obtain ⟨c, sign, hs, hc, hsign⟩ := mark_sign mark
  rw [hs]
  exact afterSign?_spell (List.forall_mem_cons.2 ⟨hc, hsign⟩)

theorem untilSign?_spell (mark : Mark) : ∀ ts : List Token,
    untilSign? mark.sign (spell ts)
      = (untilSign? mark.sign ts).map fun parts => (spell parts.1, spell parts.2)
  | [] => rfl
  | t :: ts => by
    have ih := untilSign?_spell mark ts
    rcases spell_cases t with hsame | ⟨ht, hquiet, -⟩
    · have hcons : ∀ us, spell (t :: us) = t :: spell us := fun us => by
        rw [spell_cons, hsame, List.singleton_append]
      have hafter := afterSign?_mark_spell mark (t :: ts)
      rw [hcons] at hafter ⊢
      -- the token is written as itself, so both searches stop or go on here together
      rw [untilSign?, untilSign?, hafter]
      cases afterSign? mark.sign (t :: ts) with
      | some rest => rfl
      | none =>
        simp only [Option.map_none]
        split
        · rfl
        · rw [ih, Option.map_map, Option.map_map]
          refine congrArg (Option.map · _) (funext fun parts => ?_)
          exact congrArg (·, _) (hcons parts.1).symm
    · rw [spell_cons, untilSign?_append mark _ hquiet, ih, show t :: ts = [t] ++ ts from rfl,
        untilSign?_append mark ts ht, Option.map_map, Option.map_map]
      refine congrArg (Option.map · _) (funext fun parts => ?_)
      exact congrArg (·, _) (spell_append [t] parts.1).symm

theorem marked?_spell (mark : Mark) (ts : List Token) :
    marked? mark (spell ts)
      = (marked? mark ts).map fun parts => (spell parts.1, spell parts.2) := by
  unfold marked?
  rw [afterSign?_mark_spell]
  rcases afterSign? mark.sign ts with _ | _ | ⟨t, more⟩
  · rfl
  · rfl
  · have hfeed : '\n' ∈ markCharacters := by simp [markCharacters]
    rw [Option.map_some]
    rcases spell_cases t with hsame | ⟨ht, hquiet, u, us, hu⟩
    · have hcons : ∀ us, spell (t :: us) = t :: spell us := fun us => by
        rw [spell_cons, hsame, List.singleton_append]
      rw [hcons]
      simp only
      split
      · rfl
      · rw [untilSign?_spell, Option.map_map, Option.map_map]
        refine congrArg (Option.map · _) (funext fun parts => ?_)
        exact congrArg (·, _) (hcons parts.1).symm
    · have hq : IsQuiet us := fun t ht => hquiet t (by rw [hu]; exact .tail _ ht)
      have hn : u ≠ .char '\n' := hquiet u (by rw [hu]; exact .head _) _ hfeed
      have hnt : t ≠ .char '\n' := ht t (.head _) _ hfeed
      rw [spell_cons, hu, List.cons_append]
      simp only [if_neg hn, if_neg hnt]
      rw [untilSign?_append mark _ hq, untilSign?_spell, Option.map_map, Option.map_map,
        Option.map_map]
      refine congrArg (Option.map · _) (funext fun parts => ?_)
      refine congrArg (·, _) ?_
      show u :: (us ++ spell parts.1) = spell (t :: parts.1)
      rw [spell_cons, hu, List.cons_append]

/-- Marks are placed among the characters that tokens are written as where they are placed among
the tokens. -/
theorem plainText_place_spell (mark : Mark) (ts : List Token) :
    plainText (place mark (spell ts)) = plainText (spell (place mark ts)) := by
  fun_induction place mark ts with
  | case1 =>
    rw [spell_nil, place]
  | case2 t ts body rest found ih =>
    have hm : marked? mark (spell (t :: ts)) = some (spell body, spell rest) := by
      rw [marked?_spell, found, Option.map_some]
    have htags : plainText (spell [.opening mark]) = Token.plainText (.opening mark)
        ∧ plainText (spell [.closing mark]) = Token.plainText (.closing mark) := by
      cases mark <;> exact ⟨rfl, rfl⟩
    rw [place_of_marked hm, spell_append, spell_cons, spell_cons (.closing mark)]
    simp only [List.cons_append, plainText_append, plainText_cons, htags, ← ih, List.append_assoc]
  | case3 t ts found ih =>
    have hm : marked? mark (spell (t :: ts)) = none := by
      rw [marked?_spell, found, Option.map_none]
    rw [spell_cons t ts] at hm ⊢
    rw [spell_cons t (place mark ts), plainText_append, ← ih]
    rcases spell_cases t with hsame | ⟨-, hquiet, -⟩
    · rw [hsame, List.singleton_append] at hm ⊢
      rw [place_of_unmarked hm, ← List.singleton_append, plainText_append]
    · rw [place_append _ (hquiet.isSignless mark), plainText_append]

end Inline

/-- One kind of mark placed in what is written so far. -/
def markPass (mark : Mark) (written : Text) : Text :=
  Inline.plainText (Inline.place mark (written.map .char))

theorem markPass_writeAll (mark : Mark) (ts : List Inline.Token) :
    markPass mark (Markup.writeAll (ts.map Inline.Token.markup))
      = Markup.writeAll ((Inline.place mark ts).map Inline.Token.markup) := by
  rw [← Inline.plainText_spell (Inline.place mark ts)]
  exact Inline.plainText_place_spell mark ts

theorem writeAll_characters : ∀ t : Text,
    Markup.writeAll ((t.map Inline.Token.char).map Inline.Token.markup) = escape t
  | [] => rfl
  | c :: t => by
    rw [List.map_cons, List.map_cons, Markup.writeAll_cons, writeAll_characters t]
    exact congrArg (· ++ escape t) (List.append_nil (entity c))

/-- Text with inline marks is written by escaping it and placing the marks in what is written,
strong parts first, code last. -/
theorem inlineMarkup_written_by_passes (t : Text) :
    Markup.writeAll (inlineMarkup t)
      = markPass .code (markPass .em (markPass .strong (escape t))) := by
  unfold inlineMarkup Inline.read
  rw [← markPass_writeAll, ← markPass_writeAll, ← markPass_writeAll, writeAll_characters]

end BlockDocument.Html
