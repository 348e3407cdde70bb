import BlockDocument.Proofs.Lexeme

/-!
# Escaping as an encoding

Text can also be escaped in five rounds, each of which replaces one reserved character wherever it
stands. A later round sees what the earlier ones put in, and still the rounds come to the same as
writing each character by itself (`escapeInTurn_eq_escape`): `&` goes first, and no entity holds a
character that a later round replaces.

Escaped text is decoded from the left. Where it has an entity there is the character that the
entity stands for, also if the text held entities before it was escaped (`unescape_escape`).
-/

namespace BlockDocument

/-- A text with another one in the place of each `c`. -/
def Text.replaceAll (t : Text) (c : Char) (replacement : Text) : Text :=
  t.flatMap fun d => if d = c then replacement else [d]

/-- A text in which one character after the other is replaced. -/
def Text.replaceInTurn (rounds : List (Char × Text)) (t : Text) : Text :=
  rounds.foldl (fun t r => Text.replaceAll t r.1 r.2) t

namespace Html

/-- The reserved characters in the order in which they are replaced, and their entities. -/
def replacements : List (Char × Text) := [
  ('&', "&amp;".toList),
  ('<', "&lt;".toList),
  ('>', "&gt;".toList),
  ('"', "&quot;".toList),
  ('\'', "&#39;".toList)]

/-- Escapes text in rounds, one for each reserved character. -/
def escapeInTurn (t : Text) : Text := t.replaceInTurn replacements

/-- Reads text from the left, each entity as the character that it stands for. -/
def unescape : Text → Text
  | [] => []
  | c :: rest =>
    match replacements.find? fun r => r.2.isPrefixOf (c :: rest) with
    | some r => r.1 :: unescape (rest.drop (r.2.length - 1))
    | none => c :: unescape rest
termination_by t => t.length
decreasing_by
  · simp only [List.length_drop, List.length_cons]
    omega
  · exact Nat.lt_succ_self _

/-! ## The characters one by one -/

/-- A character has an entity, or it is not reserved and stands for itself. -/
theorem entity_cases (c : Char) :
    (c, entity c) ∈ replacements ∨ c ∉ Lexeme.reserved ∧ entity c = [c] := by
  by_cases hc : c ∈ Lexeme.reserved
  · refine .inl ?_
    simp only [Lexeme.reserved, List.mem_cons, List.not_mem_nil, or_false] at hc
    rcases hc with rfl | rfl | rfl | rfl | rfl <;> decide
  · have hself : escape [c] = [c] := escape_eq_self fun d hd => by
      rwa [List.mem_singleton.1 hd]
    exact .inr ⟨hc, by rwa [escape_cons, escape_nil, List.append_nil] at hself⟩

theorem entity_of_mem {r : Char × Text} (h : r ∈ replacements) : entity r.1 = r.2 := by
  simp only [replacements, List.mem_cons, List.not_mem_nil, or_false] at h
  rcases h with rfl | rfl | rfl | rfl | rfl <;> rfl

/-- An entity begins with `&` and holds no other reserved character. -/
theorem exists_entity_eq {r : Char × Text} (h : r ∈ replacements) :
    ∃ behind, r.2 = '&' :: behind ∧ '&' ∉ behind := by
  simp only [replacements, List.mem_cons, List.not_mem_nil, or_false] at h
  rcases h with rfl | rfl | rfl | rfl | rfl <;> exact ⟨_, rfl, by decide⟩

/-! ## Rounds -/

theorem replaceInTurn_eq_flatMap (t : Text) : ∀ rounds : List (Char × Text),
    t.replaceInTurn rounds = t.flatMap fun c => Text.replaceInTurn rounds [c]
  | [] => by simp [Text.replaceInTurn]
  | r :: rounds => by
    have hcons : ∀ s : Text, s.replaceInTurn (r :: rounds)
        = (Text.replaceAll s r.1 r.2).replaceInTurn rounds := fun _ => rfl
    rw [hcons, replaceInTurn_eq_flatMap _ rounds, Text.replaceAll, List.flatMap_assoc]
    refine congrArg (List.flatMap · t) (funext fun c => ?_)
    rw [hcons, replaceInTurn_eq_flatMap _ rounds, Text.replaceAll, List.flatMap_singleton]

theorem replaceInTurn_of_ne {c : Char} : ∀ {rounds : List (Char × Text)},
    (∀ r ∈ rounds, c ≠ r.1) → Text.replaceInTurn rounds [c] = [c]
  | [], _ => rfl
  | r :: rounds, h => by
    obtain ⟨hr, hrounds⟩ := List.forall_mem_cons.1 h
    have hround : Text.replaceAll [c] r.1 r.2 = [c] := by simp [Text.replaceAll, hr]
    show Text.replaceInTurn rounds (Text.replaceAll [c] r.1 r.2) = [c]
    rw [hround, replaceInTurn_of_ne hrounds]

/-- A character that is replaced in one round is left alone in the rounds behind it. -/
theorem escapeInTurn_singleton (c : Char) : escapeInTurn [c] = entity c := by
  rcases entity_cases c with hc | ⟨hc, he⟩
  · simp only [replacements, List.mem_cons, Prod.mk.injEq, List.not_mem_nil, or_false] at hc
    rcases hc with ⟨rfl, -⟩ | ⟨rfl, -⟩ | ⟨rfl, -⟩ | ⟨rfl, -⟩ | ⟨rfl, -⟩ <;> decide
  · rw [he]
    refine replaceInTurn_of_ne fun r hr hcr => hc ?_
    have hreserved : ∀ r ∈ replacements, r.1 ∈ Lexeme.reserved := by decide
    exact hcr ▸ hreserved r hr

theorem escapeInTurn_eq_escape (t : Text) : escapeInTurn t = escape t := by
  rw [escapeInTurn, replaceInTurn_eq_flatMap]
  exact congrArg (List.flatMap · t) (funext escapeInTurn_singleton)

/-! ## Reading entities -/

/-- Each `&` of escaped text begins an entity. -/
theorem exists_prefix_of_escape {after : Text} : ∀ {t before : Text},
    escape t = before ++ '&' :: after → ∃ r ∈ replacements, r.2 <+: '&' :: after
  | [], before, h => by
    rw [escape_nil, List.nil_eq, List.append_eq_nil_iff] at h
    cases h.2
  | c :: t, before, h => by
    rw [escape_cons, List.append_eq_append_iff] at h
    rcases h with ⟨more, -, ht⟩ | ⟨more, hentity, hafter⟩
    · exact exists_prefix_of_escape ht
    · -- the sign stands in what is written for this character, unless nothing of that is left
      rcases more with _ | ⟨d, more⟩
      · have hnone : escape t = [] ++ '&' :: after := hafter.symm
        exact exists_prefix_of_escape hnone
      · obtain ⟨rfl, hafter⟩ := List.cons.inj hafter
        rcases entity_cases c with hc | ⟨hc, he⟩
        · obtain ⟨behind, hbehind, hnot⟩ := exists_entity_eq hc
          rcases before with _ | ⟨e, before⟩
          · exact ⟨_, hc, escape t, by rw [hafter, hentity]; rfl⟩
          · have hcons := hbehind.symm.trans hentity
            exact absurd (by rw [(List.cons.inj hcons).2]; simp) hnot
        · have hmem : '&' ∈ [c] := by rw [← he, hentity]; simp
          rw [← List.mem_singleton.1 hmem] at hc
          exact absurd (by decide) hc

theorem unescape_entity_append (c : Char) (t : Text) :
    unescape (entity c ++ t) = c :: unescape t := by
  rcases entity_cases c with hc | ⟨hc, he⟩
  · simp only [replacements, List.mem_cons, Prod.mk.injEq, List.not_mem_nil, or_false] at hc
    rcases hc with ⟨rfl, -⟩ | ⟨rfl, -⟩ | ⟨rfl, -⟩ | ⟨rfl, -⟩ | ⟨rfl, -⟩
    all_goals
      show unescape (_ :: _) = _
      rw [unescape]
      rfl
  · have hnone : (replacements.find? fun r => r.2.isPrefixOf (c :: t)) = none := by
      refine List.find?_eq_none.2 fun r hr hbegins => ?_
      obtain ⟨behind, hbehind, -⟩ := exists_entity_eq hr
      rw [hbehind, List.isPrefixOf_iff_prefix, List.cons_prefix_cons] at hbegins
      exact hc (hbegins.1 ▸ by decide)
    rw [he, List.singleton_append, unescape, hnone]

theorem unescape_escape : ∀ t : Text, unescape (escape t) = t
  | [] => by rw [escape_nil, unescape]
  | c :: t => by rw [escape_cons, unescape_entity_append, unescape_escape t]

/-- Escaping in rounds writes each character by itself: a reserved one as its entity, and any other
as it is. What it writes has no tags and no quotes, each `&` in it begins an entity, and reading it
once gives the text again. -/
theorem escape_isEncoding (s t : Text) :
    escapeInTurn t = escape t
      ∧ (∀ r ∈ replacements, escape [r.1] = r.2)
      ∧ (∀ c, (∀ r ∈ replacements, c ≠ r.1) → escape [c] = [c])
      ∧ escape (s ++ t) = escape s ++ escape t
      ∧ (∀ c ∈ ['<', '>', '"', '\''], c ∉ escape t)
      ∧ (∀ before after, escape t = before ++ '&' :: after →
        ∃ r ∈ replacements, r.2 <+: '&' :: after)
      ∧ unescape (escape t) = t := by
  have hsingle : ∀ c, escape [c] = entity c := fun c => List.flatMap_singleton _ _
  refine ⟨escapeInTurn_eq_escape t, fun r hr => ?_, fun c hc => ?_, escape_append s t,
    fun c hc => Lexeme.not_mem_escape hc t, fun _ _ h => exists_prefix_of_escape h,
    unescape_escape t⟩
  · rw [hsingle, entity_of_mem hr]
  · rw [hsingle]
    rcases entity_cases c with hmem | ⟨-, he⟩
    · exact absurd rfl (hc _ hmem)
    · exact he

end Html

end BlockDocument
