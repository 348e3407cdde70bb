import BlockDocument.Proofs.MarkPasses
import BlockDocument.Proofs.ProseGroups

/-!
# Inline marks that stand apart

A text may be written segment by segment, each plain or between the two signs of a mark. Where no
sign stands inside a segment and marked segments have plain text between them, it is read segment by
segment too (`inlineText_of_segments`): every kind of mark finds its own segments and passes over
the others, those that the kinds before it have turned into tags included. Strong parts have to be
read before emphasised ones, as their signs begin alike.
-/

namespace BlockDocument.Html

/-- A piece of a text, plain or between two signs of a mark. -/
inductive Segment
  | plain (content : Text)
  | marked (mark : Mark) (content : Text)
  deriving DecidableEq, Repr

namespace Segment

/-- Whether a segment is between signs. -/
def isMarked : Segment → Bool
  | plain _ => false
  | marked .. => true

/-- A segment as it is written in the text. -/
def source : Segment → Text
  | plain content => content
  | marked mark content => mark.sign ++ content ++ mark.sign

/-- A segment as it is written on the page. -/
def html : Segment → Text
  | plain content => escape content
  | marked .strong content => "<strong>".toList ++ escape content ++ "</strong>".toList
  | marked .em content => "<em>".toList ++ escape content ++ "</em>".toList
  | marked .code content => "<code>".toList ++ escape content ++ "</code>".toList

/-- Whether no sign stands in a segment, and what is marked is not empty and stands on one line. -/
def IsSimple : Segment → Prop
  | plain content => ∀ c ∈ content, c ∉ ['*', '\x60']
  | marked _ content => content ≠ [] ∧ ∀ c ∈ content, c ∉ ['*', '\x60', '\n']

instance : DecidablePred IsSimple
  | plain content => List.decidableBAll (fun c => c ∉ ['*', '\x60']) content
  | marked _ content =>
    have := List.decidableBAll (fun c => c ∉ ['*', '\x60', '\n']) content
    inferInstanceAs (Decidable (content ≠ [] ∧ ∀ c ∈ content, c ∉ ['*', '\x60', '\n']))

/-- Whether any two marked segments have a plain one between them that is not empty: without the
empty ones, no two marked segments stand side by side. -/
def AreSeparated (segments : List Segment) : Prop :=
  (segments.filter (· ≠ plain [])).IsChain fun a b => ¬ (a.isMarked ∧ b.isMarked)

instance (segments : List Segment) : Decidable (AreSeparated segments) :=
  inferInstanceAs (Decidable (List.IsChain _ _))

theorem AreSeparated.tail {s : Segment} {segments : List Segment}
    (h : AreSeparated (s :: segments)) : AreSeparated segments := by
  unfold AreSeparated at h ⊢
  rw [List.filter_cons] at h
  split at h
  · exact List.IsChain.tail h
  · exact h

end Segment

namespace Inline

open Segment

/-! ## Segments as tokens -/

/-- The tokens of a segment when the given kinds of marks are placed. -/
def segmentTokens (placed : List Mark) : Segment → List Token
  | plain content => content.map .char
  | marked mark content =>
    if mark ∈ placed then .opening mark :: (content.map .char ++ [.closing mark])
    else mark.sign.map .char ++ (content.map .char ++ mark.sign.map .char)

theorem segmentTokens_source (s : Segment) : segmentTokens [] s = s.source.map .char := by
  cases s with
  | plain content => rfl
  | marked mark content => simp [segmentTokens, source]

theorem mem_sign {mark : Mark} {c : Char} (h : c ∈ mark.sign) : c ∈ ['*', '\x60'] := by
  cases mark <;> simp_all [Mark.sign]

theorem isSignless_characters {mark : Mark} {t : Text} (h : ∀ c ∈ t, c ∉ mark.sign) :
    IsSignless mark (t.map .char) := by
  intro token ht c hc he
  obtain ⟨d, hd, rfl⟩ := List.mem_map.1 ht
  cases he
  exact h c hd hc

theorem isQuiet_content {mark : Mark} {content : Text} (h : (marked mark content).IsSimple) :
    IsQuiet (content.map .char) := by
  intro token ht c hc he
  obtain ⟨d, hd, rfl⟩ := List.mem_map.1 ht
  cases he
  exact h.2 c hd hc

/-! ## A marked segment -/

theorem afterSign?_sign (ts : List Token) : ∀ sign : Text,
    afterSign? sign (sign.map .char ++ ts) = some ts
  | [] => rfl
  | c :: sign => by
    rw [List.map_cons, List.cons_append, afterSign?, if_pos rfl, afterSign?_sign ts sign]

theorem untilSign?_sign (mark : Mark) (ts : List Token) :
    untilSign? mark.sign (mark.sign.map .char ++ ts) = some ([], ts) := by
  have hafter := afterSign?_sign ts mark.sign
  obtain ⟨c, sign, hs, -⟩ := mark_sign mark
  rw [hs, List.map_cons, List.cons_append] at hafter ⊢
  rw [untilSign?, hafter]

theorem marked?_segment {mark : Mark} {content : Text} (h : (marked mark content).IsSimple)
    (ts : List Token) :
    marked? mark (mark.sign.map .char ++ (content.map .char ++ (mark.sign.map .char ++ ts)))
      = some (content.map .char, ts) := by
  have hquiet := isQuiet_content h
  obtain ⟨c, rest, rfl⟩ := List.exists_cons_of_ne_nil h.1
  rw [List.map_cons] at hquiet ⊢
  obtain ⟨hc, hrest⟩ := List.forall_mem_cons.1 hquiet
  have hfeed : Token.char c ≠ .char '\n' := hc '\n' (by simp [markCharacters])
  unfold marked?
  rw [afterSign?_sign, List.cons_append]
  simp only [if_neg hfeed]
  rw [untilSign?_append mark _ hrest, untilSign?_sign]
  simp

/-- A segment of the kind that is placed becomes an element. -/
theorem place_segment {mark : Mark} {content : Text} (h : (marked mark content).IsSimple)
    (ts : List Token) :
    place mark (mark.sign.map .char ++ (content.map .char ++ (mark.sign.map .char ++ ts)))
      = .opening mark :: (content.map .char ++ .closing mark :: place mark ts) :=
  place_of_marked (marked?_segment h ts)

/-- A star that is not followed by another begins no strong part. -/
theorem place_star {ts : List Token} (h : ts.head? ≠ some (.char '*')) :
    place .strong (.char '*' :: ts) = .char '*' :: place .strong ts := by
  refine place_of_unmarked ?_
  have hafter : afterSign? Mark.strong.sign (.char '*' :: ts) = none := by
    show afterSign? ['*'] ts = none
    rcases ts with _ | ⟨t, ts⟩
    · rfl
    · exact afterSign?_eq_none (fun ht => h (congrArg some ht)) [] ts
  unfold marked?
  rw [hafter]

/-- An emphasised segment is passed over when strong parts are placed, if no star follows. -/
theorem place_strong_em {content : Text} (h : (marked .em content).IsSimple) {ts : List Token}
    (hts : ts.head? ≠ some (.char '*')) :
    place .strong (.char '*' :: (content.map .char ++ .char '*' :: ts))
      = .char '*' :: (content.map .char ++ .char '*' :: place .strong ts) := by
  have hquiet := isQuiet_content h
  have hhead : (content.map Token.char ++ .char '*' :: ts).head? ≠ some (.char '*') := by
    obtain ⟨c, rest, rfl⟩ := List.exists_cons_of_ne_nil h.1
    intro he
    exact hquiet (.char c) (.head _) '*' (by simp [markCharacters]) (Option.some.inj he)
  rw [place_star hhead, place_append _ (hquiet.isSignless .strong), place_star hts]

/-- A segment of another kind stays as it is. -/
theorem place_other {mark other : Mark} (hne : other ≠ mark) (hem : mark = .em → other ≠ .strong)
    {content : Text} (h : (marked other content).IsSimple) {ts : List Token}
    (hts : ts.head? ≠ some (.char '*')) :
    place mark (other.sign.map .char ++ (content.map .char ++ (other.sign.map .char ++ ts)))
      = other.sign.map .char ++ (content.map .char ++ (other.sign.map .char ++ place mark ts)) := by
  by_cases hstar : mark = .strong ∧ other = .em
  · obtain ⟨rfl, rfl⟩ := hstar
    exact place_strong_em h hts
  · -- the two signs have no character in common, so no part can begin within the segment
    have hsigns : ∀ c ∈ other.sign, c ∉ mark.sign := by
      cases mark <;> cases other <;> simp_all [Mark.sign]
    have hsign : IsSignless mark (other.sign.map .char) := isSignless_characters hsigns
    rw [place_append _ hsign, place_append _ ((isQuiet_content h).isSignless mark),
      place_append _ hsign]

/-- Placing marks of one kind goes over a segment, and turns it into an element if it is of that
kind. -/
theorem place_segmentTokens {placed : List Mark} {mark : Mark} (hm : mark ∉ placed)
    (hem : mark = .em → .strong ∈ placed) {s : Segment} (hs : s.IsSimple) {ts : List Token}
    (hts : s.isMarked → ts.head? ≠ some (.char '*')) :
    place mark (segmentTokens placed s ++ ts)
      = segmentTokens (mark :: placed) s ++ place mark ts := by
  cases s with
  | plain content =>
    have hsignless : IsSignless mark (content.map .char) :=
      isSignless_characters fun c hc hsign => hs c hc (mem_sign hsign)
    exact place_append _ hsignless
  | marked other content =>
    by_cases hother : other = mark
    · subst hother
      rw [segmentTokens, if_neg hm, segmentTokens, if_pos List.mem_cons_self]
      simp only [List.append_assoc, List.cons_append, List.nil_append]
      exact place_segment hs _
    · by_cases hplaced : other ∈ placed
      · have hsignless : IsSignless mark
            (.opening other :: (content.map .char ++ [.closing other])) := by
          refine List.forall_mem_cons.2 ⟨fun _ _ => nofun, ?_⟩
          refine List.forall_mem_append.2 ⟨(isQuiet_content hs).isSignless mark, ?_⟩
          exact List.forall_mem_singleton.2 fun _ _ => nofun
        rw [segmentTokens, if_pos hplaced, segmentTokens, if_pos (List.mem_cons_of_mem _ hplaced),
          place_append _ hsignless]
      · have hnot : other ∉ mark :: placed := by simp [hother, hplaced]
        have hstrong : mark = .em → other ≠ .strong := fun h he => hplaced (he ▸ hem h)
        rw [segmentTokens, if_neg hplaced, segmentTokens, if_neg hnot]
        simp only [List.append_assoc]
        exact place_other hother hstrong hs (hts rfl)

/-! ## Segments one after the other -/

theorem head?_segments {placed : List Mark} {s : Segment} (hm : s.isMarked)
    {segments : List Segment} (hs : ∀ s ∈ segments, s.IsSimple)
    (ha : AreSeparated (s :: segments)) :
    (segments.flatMap (segmentTokens placed)).head? ≠ some (.char '*') := by
  rcases s with content | ⟨mark, inner⟩
  · cases hm
  induction segments with
  | nil => simp
  | cons next segments ih =>
    obtain ⟨hnext, hrest⟩ := List.forall_mem_cons.1 hs
    rcases next with (_ | ⟨c, content⟩) | ⟨other, content⟩
    · exact ih hrest ha
    · intro he
      cases Option.some.inj he
      exact hnext _ (.head _) (.head _)
    · have hboth := (List.isChain_cons.1 ha).1 (marked other content) rfl
      exact absurd ⟨rfl, rfl⟩ hboth

/-- The segments of one kind become elements, and the others stay as they are. -/
theorem place_segments {placed : List Mark} {mark : Mark} (hm : mark ∉ placed)
    (hem : mark = .em → .strong ∈ placed) {segments : List Segment}
    (hs : ∀ s ∈ segments, s.IsSimple) (ha : AreSeparated segments) :
    place mark (segments.flatMap (segmentTokens placed))
      = segments.flatMap (segmentTokens (mark :: placed)) := by
  induction segments with
  | nil =>
    rw [List.flatMap_nil, place]
    rfl
  | cons s segments ih =>
    obtain ⟨hs, hrest⟩ := List.forall_mem_cons.1 hs
    have hts : s.isMarked →
        (segments.flatMap (segmentTokens placed)).head? ≠ some (.char '*') :=
      fun hm => head?_segments hm hrest ha
    rw [List.flatMap_cons, List.flatMap_cons, place_segmentTokens hm hem hs hts,
      ih hrest ha.tail]

theorem read_segments {segments : List Segment} (hs : ∀ s ∈ segments, s.IsSimple)
    (ha : AreSeparated segments) :
    Inline.read (segments.flatMap source)
      = segments.flatMap (segmentTokens [.code, .em, .strong]) := by
  have hchars : (segments.flatMap source).map Token.char
      = segments.flatMap (segmentTokens []) := by
    rw [List.map_flatMap]
    exact congrArg (List.flatMap · segments) (funext fun s => (segmentTokens_source s).symm)
  unfold Inline.read
  rw [hchars, place_segments (by decide) (by decide) hs ha,
    place_segments (by decide) (by decide) hs ha, place_segments (by decide) (by decide) hs ha]

theorem writeAll_segmentTokens (s : Segment) :
    Markup.writeAll ((segmentTokens [.code, .em, .strong] s).map Token.markup) = s.html := by
  have htags : ∀ (mark : Mark) (content : Text),
      Markup.writeAll ((Token.opening mark :: (content.map Token.char
        ++ [.closing mark])).map Token.markup)
        = (Token.opening mark).markup.write ++ escape content
          ++ (Token.closing mark).markup.write := by
    intro mark content
    rw [List.map_cons, List.map_append, Markup.writeAll_cons, Markup.writeAll_append,
      writeAll_characters, List.map_singleton, Markup.writeAll_cons, Markup.writeAll_nil,
      List.append_nil, List.append_assoc]
  cases s with
  | plain content => exact writeAll_characters content
  | marked mark content => cases mark <;> exact htags _ content

end Inline

/-- Text written in simple segments that stand apart is read segment by segment. -/
theorem inlineText_of_segments {segments : List Segment} (hs : ∀ s ∈ segments, s.IsSimple)
    (ha : Segment.AreSeparated segments) :
    inlineText (segments.flatMap Segment.source) = segments.flatMap Segment.html := by
  unfold inlineText inlineMarkup
  rw [Inline.read_segments hs ha, List.map_flatMap, writeAll_flatMap]
  simp only [Inline.writeAll_segmentTokens]

/-- Segments of every kind, with reserved characters inside and a line that ends in plain text. -/
def mixedSegments : List Segment :=
  [.marked .strong "<b>".toList, .plain " and\n".toList, .marked .em "it".toList, .plain [],
    .plain "&".toList, .marked .code "x<y".toList, .plain ", ".toList, .marked .em "'".toList]

theorem inlineText_of_segments_mixed :
    (∀ s ∈ mixedSegments, s.IsSimple) ∧ Segment.AreSeparated mixedSegments
      ∧ inlineText (mixedSegments.flatMap Segment.source)
        = mixedSegments.flatMap Segment.html := by
  have hs : ∀ s ∈ mixedSegments, s.IsSimple := by decide
  have ha : Segment.AreSeparated mixedSegments := by decide
  exact ⟨hs, ha, inlineText_of_segments hs ha⟩

end BlockDocument.Html
