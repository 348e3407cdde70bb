import Mathlib.Data.List.Infix
import BlockDocument.Proofs.TextLines

/-!
# Markers

A page is taken apart at markers, which are tags or the starts of tags. A marker begins with a `<`
and holds no other, and if it holds a `>` it ends there. So it cannot begin in a text where every
`<` is closed and go on behind it: such texts, one after the other, hold a marker as often as all of
them together. A marker that the texts in front of it do not hold is the first.
-/

namespace BlockDocument.Text

/-- How often a text that is not empty is found in another. -/
def occurrences (needle : Text) : Text → Nat
  | [] => 0
  | c :: t => (if needle.isPrefixOf (c :: t) then 1 else 0) + occurrences needle t

/-- What is counted in texts together. -/
def total (count : Text → Nat) : List Text → Nat
  | [] => 0
  | t :: ts => count t + total count ts

/-- What stands between the first `start` and the first `stop` behind it. -/
def between? (start stop t : Text) : Option Text := do
  let (_, behind) ← t.dropInfix? start
  let (inside, _) ← behind.dropInfix? stop
  return inside

/-- A tag, or the start of one. -/
structure IsMarker (marker : Text) : Prop where
  head : marker.head? = some '<'
  tail : '<' ∉ marker.tail
  last : '>' ∉ marker.dropLast

/-- Whether every `<` has a `>` behind it. -/
def isClosed : Text → Bool
  | [] => true
  | c :: t => (c != '<' || t.contains '>') && isClosed t

/-- A closed text that does not hold a marker. -/
structure Clear (marker t : Text) : Prop where
  closed : isClosed t = true
  absent : occurrences marker t = 0

/-- That neither of two texts begins with the other. -/
def clashes (s t : Text) : Bool := !s.isPrefixOf t && !t.isPrefixOf s

variable {marker s t : Text}

instance : Decidable (IsMarker marker) :=
  decidable_of_iff (marker.head? = some '<' ∧ '<' ∉ marker.tail ∧ '>' ∉ marker.dropLast)
    ⟨fun ⟨head, tail, last⟩ => ⟨head, tail, last⟩, fun h => ⟨h.head, h.tail, h.last⟩⟩

instance : Decidable (Clear marker t) :=
  decidable_of_iff (isClosed t = true ∧ occurrences marker t = 0)
    ⟨fun ⟨closed, absent⟩ => ⟨closed, absent⟩, fun h => ⟨h.closed, h.absent⟩⟩

/-! ## Closed texts -/

theorem isClosed_append : ∀ {s : Text}, isClosed s = true → isClosed t = true →
    isClosed (s ++ t) = true
  | [], _, ht => ht
  | c :: s, hs, ht => by
    simp only [isClosed, Bool.and_eq_true, Bool.or_eq_true, List.contains_iff_mem] at hs
    simp only [List.cons_append, isClosed, Bool.and_eq_true, Bool.or_eq_true, List.contains_iff_mem]
    exact ⟨hs.1.imp_right (List.mem_append_left t), isClosed_append hs.2 ht⟩

theorem isClosed_of_append : ∀ {s : Text}, isClosed (s ++ t) = true → isClosed t = true
  | [], h => h
  | _ :: _, h => isClosed_of_append (Bool.and_eq_true_iff.1 h).2

theorem isClosed_of_not_mem : ∀ {t : Text}, '<' ∉ t → isClosed t = true
  | [], _ => rfl
  | c :: t, h => by
    have hc : (c != '<') = true := bne_iff_ne.2 fun he => h (he ▸ List.mem_cons_self)
    rw [isClosed, hc, Bool.true_or, Bool.true_and]
    exact isClosed_of_not_mem fun hm => h (List.mem_cons_of_mem _ hm)

/-! ## Occurrences -/

theorem IsMarker.eq_cons (h : IsMarker marker) : ∃ body, marker = '<' :: body ∧ '<' ∉ body := by
  obtain ⟨body, rfl⟩ := List.head?_eq_some_iff.1 h.head
  exact ⟨body, rfl, h.tail⟩

/-- A marker that begins in a closed text also ends there. -/
theorem IsMarker.prefix_append_iff (h : IsMarker marker) {c : Char}
    (hs : isClosed (c :: s) = true) (t : Text) :
    marker <+: c :: s ++ t ↔ marker <+: c :: s := by
  refine ⟨fun hp => ?_, fun hp => hp.trans (List.prefix_append _ _)⟩
  rcases List.prefix_or_prefix_of_prefix hp (List.prefix_append (c :: s) t) with hm | hm
  · exact hm
  -- the closed text would be a start of the marker, whose `<` is closed only by its end
  obtain ⟨rest, hrest⟩ := hm
  obtain ⟨body, rfl, -⟩ := h.eq_cons
  rcases rest with _ | ⟨d, rest⟩
  · rw [← hrest, List.append_nil]
  obtain rfl : c = '<' := (List.cons.inj hrest).1
  have hgt : '>' ∈ s := by
    simpa [isClosed] using (Bool.and_eq_true_iff.1 hs).1
  refine absurd ?_ h.last
  rw [← hrest, List.dropLast_append_of_ne_nil (List.cons_ne_nil d rest)]
  exact List.mem_append_left _ (List.mem_cons_of_mem _ hgt)

theorem IsMarker.occurrences_append (h : IsMarker marker) (t : Text) : ∀ {s : Text},
    isClosed s = true → occurrences marker (s ++ t) = occurrences marker s + occurrences marker t
  | [], _ => (Nat.zero_add _).symm
  | c :: s, hs => by
    have hp : marker.isPrefixOf (c :: s ++ t) = marker.isPrefixOf (c :: s) := by
      rw [Bool.eq_iff_iff, List.isPrefixOf_iff_prefix, List.isPrefixOf_iff_prefix]
      exact h.prefix_append_iff hs t
    have ih := h.occurrences_append t (Bool.and_eq_true_iff.1 hs).2
    rw [List.cons_append] at hp ⊢
    rw [occurrences, occurrences, hp, ih, Nat.add_assoc]

theorem IsMarker.occurrences_of_not_mem (h : IsMarker marker) : ∀ {t : Text}, '<' ∉ t →
    occurrences marker t = 0
  | [], _ => rfl
  | c :: t, ht => by
    have hp : marker.isPrefixOf (c :: t) = false := by
      refine Bool.eq_false_iff.2 fun hp => ht ?_
      obtain ⟨body, rfl, -⟩ := h.eq_cons
      exact (List.isPrefixOf_iff_prefix.1 hp).subset List.mem_cons_self
    have ih : occurrences marker t = 0 :=
      h.occurrences_of_not_mem fun hm => ht (List.mem_cons_of_mem _ hm)
    rw [occurrences, hp, ih]
    rfl

theorem IsMarker.occurrences_self_append (h : IsMarker marker) (t : Text) :
    occurrences marker (marker ++ t) = 1 + occurrences marker t := by
  have hp : marker.isPrefixOf (marker ++ t) = true :=
    List.isPrefixOf_iff_prefix.2 (List.prefix_append _ _)
  obtain ⟨body, rfl, hb⟩ := h.eq_cons
  rw [List.cons_append] at hp ⊢
  rw [occurrences, hp, h.occurrences_append t (isClosed_of_not_mem hb),
    h.occurrences_of_not_mem hb, Nat.zero_add]
  rfl

theorem IsMarker.clear_of_not_mem (h : IsMarker marker) (ht : '<' ∉ t) : Clear marker t :=
  ⟨isClosed_of_not_mem ht, h.occurrences_of_not_mem ht⟩

theorem Clear.append (h : IsMarker marker) (hs : Clear marker s) (ht : Clear marker t) :
    Clear marker (s ++ t) where
  closed := isClosed_append hs.closed ht.closed
  absent := by rw [h.occurrences_append t hs.closed, hs.absent, ht.absent]

/-- A tag that begins like no marker holds none. -/
theorem IsMarker.clear_tag (h : IsMarker marker) (start : Text) {inside : Text}
    (hc : clashes marker ('<' :: start) = true) (hs : '<' ∉ start) (hi : '<' ∉ inside) :
    Clear marker ('<' :: start ++ inside ++ ">".toList) := by
  have hrest : '<' ∉ start ++ (inside ++ ">".toList) := by
    simpa only [List.mem_append, not_or] using ⟨hs, hi, by decide⟩
  have hp : marker.isPrefixOf ('<' :: (start ++ (inside ++ ">".toList))) = false := by
    refine Bool.eq_false_iff.2 fun hp => ?_
    simp only [clashes, Bool.and_eq_true, Bool.not_eq_true', Bool.eq_false_iff, ne_eq,
      List.isPrefixOf_iff_prefix] at hc
    exact (List.prefix_or_prefix_of_prefix (List.isPrefixOf_iff_prefix.1 hp)
      (List.prefix_append ('<' :: start) _)).elim hc.1 hc.2
  rw [List.append_assoc, List.cons_append]
  refine ⟨?_, ?_⟩
  · rw [isClosed, isClosed_of_not_mem hrest]
    simp
  · rw [occurrences, hp, h.occurrences_of_not_mem hrest]
    rfl

/-! ## Taking apart -/

theorem occurrences_pos_of_prefix : ∀ {before : Text}, marker ≠ [] →
    0 < occurrences marker (before ++ (marker ++ t))
  | [], hm => by
    have hp : marker.isPrefixOf (marker ++ t) = true :=
      List.isPrefixOf_iff_prefix.2 (List.prefix_append _ _)
    obtain ⟨c, rest, rfl⟩ := List.exists_cons_of_ne_nil hm
    rw [List.cons_append] at hp
    rw [List.nil_append, List.cons_append, occurrences, hp]
    exact Nat.lt_of_lt_of_le Nat.zero_lt_one (Nat.le_add_right _ _)
  | c :: before, hm => by
    have ih : 0 < occurrences marker (before ++ (marker ++ t)) := occurrences_pos_of_prefix hm
    rw [List.cons_append, occurrences]
    omega

theorem IsMarker.ne_nil (h : IsMarker marker) : marker ≠ [] := by
  obtain ⟨body, rfl, -⟩ := h.eq_cons
  exact List.cons_ne_nil _ _

theorem dropInfix?_eq_none (h : IsMarker marker) (ht : occurrences marker t = 0) :
    t.dropInfix? marker = none := by
  refine Option.eq_none_iff_forall_ne_some.2 fun parts hp => ?_
  obtain ⟨⟨found, hfound, he⟩, -⟩ := List.dropInfix?_eq_some_iff.1 hp
  obtain rfl : found = marker := eq_of_beq he
  rw [List.append_assoc] at hfound
  have hpos : 0 < occurrences found (parts.1 ++ (found ++ parts.2)) :=
    occurrences_pos_of_prefix h.ne_nil
  rw [← hfound, ht] at hpos
  exact absurd hpos (Nat.lt_irrefl 0)

/-- A marker behind a text that is clear of it is the first. -/
theorem IsMarker.dropInfix?_append (h : IsMarker marker) (hs : Clear marker s) (t : Text) :
    (s ++ (marker ++ t)).dropInfix? marker = some (s, t) := by
  refine List.dropInfix?_eq_some_iff.2
    ⟨⟨marker, (List.append_assoc ..).symm, beq_self_eq_true _⟩, ?_⟩
  intro before found after hfound he
  obtain rfl : found = marker := eq_of_beq he
  refine Nat.le_of_not_lt fun hlt => ?_
  -- an earlier one would begin in the clear text, and so lie in it
  rw [List.append_assoc] at hfound
  obtain ⟨rest, rfl⟩ : before <+: s :=
    List.prefix_of_prefix_length_le ⟨_, hfound.symm⟩ (List.prefix_append s _) hlt.le
  rw [List.append_assoc, List.append_cancel_left_eq] at hfound
  obtain ⟨c, rest, rfl⟩ : ∃ c more, rest = c :: more :=
    List.exists_cons_of_ne_nil fun hr => by simp [hr] at hlt
  obtain ⟨more, hmore⟩ := (h.prefix_append_iff (isClosed_of_append hs.closed) _).1 ⟨_, hfound.symm⟩
  have hpos : 0 < occurrences found (before ++ (found ++ more)) :=
    occurrences_pos_of_prefix h.ne_nil
  rw [hmore, hs.absent] at hpos
  exact absurd hpos (Nat.lt_irrefl 0)

theorem between?_append {start stop before inside : Text} (hstart : IsMarker start)
    (hstop : IsMarker stop) (hb : Clear start before) (hi : Clear stop inside) (after : Text) :
    between? start stop (before ++ (start ++ (inside ++ (stop ++ after)))) = some inside := by
  rw [between?, hstart.dropInfix?_append hb]
  show ((inside ++ (stop ++ after)).dropInfix? stop >>= fun parts => pure parts.1) = _
  rw [hstop.dropInfix?_append hi]
  rfl

theorem between?_eq_none {start : Text} (hstart : IsMarker start)
    (ht : occurrences start t = 0) (stop : Text) : between? start stop t = none := by
  rw [between?, dropInfix?_eq_none hstart ht]
  rfl

/-! ## Lines -/

theorem join_cons (line : Text) {rest : List Text} (hr : rest ≠ []) :
    join ['\n'] (line :: rest) = line ++ '\n' :: join ['\n'] rest := by
  obtain ⟨next, rest, rfl⟩ := List.exists_cons_of_ne_nil hr
  show line ++ ['\n'] ++ join ['\n'] (next :: rest) = _
  rw [List.append_assoc, List.singleton_append]

theorem join_append {rest : List Text} (hr : rest ≠ []) (line : Text) : ∀ before : List Text,
    join ['\n'] (before ++ line :: rest) = unlines before ++ (line ++ '\n' :: join ['\n'] rest)
  | [] => join_cons line hr
  | first :: before => by
    rw [List.cons_append, join_cons first (by simp), join_append hr line before, unlines_cons,
      List.append_assoc, List.cons_append]

theorem Clear.unlines (h : IsMarker marker) : ∀ {lines : List Text},
    (∀ line ∈ lines, Clear marker line) → Clear marker (unlines lines)
  | [], _ => ⟨rfl, rfl⟩
  | line :: lines, hl => by
    have hfeed : Clear marker ['\n'] := h.clear_of_not_mem (by decide)
    have ih := Clear.unlines h fun l hm => hl l (List.mem_cons_of_mem _ hm)
    rw [unlines_cons]
    exact (hl line List.mem_cons_self).append h (hfeed.append h ih)

theorem IsMarker.occurrences_join (h : IsMarker marker) : ∀ {lines : List Text},
    (∀ line ∈ lines, isClosed line = true) →
      occurrences marker (join ['\n'] lines) = total (occurrences marker) lines
  | [], _ => rfl
  | [line], _ => by simp [join, total]
  | line :: next :: lines, hl => by
    have hfeed : Clear marker ['\n'] := h.clear_of_not_mem (by decide)
    have ih := h.occurrences_join fun l (hm : l ∈ next :: lines) => hl l (List.mem_cons_of_mem _ hm)
    rw [join_cons line (List.cons_ne_nil next lines), ← List.singleton_append,
      h.occurrences_append _ (hl line List.mem_cons_self), h.occurrences_append _ hfeed.closed,
      hfeed.absent, Nat.zero_add, ih]
    rfl

theorem total_append (count : Text → Nat) (ts : List Text) : ∀ ss : List Text,
    total count (ss ++ ts) = total count ss + total count ts
  | [] => (Nat.zero_add _).symm
  | s :: ss => by
    rw [List.cons_append, total, total, total_append count ts ss, Nat.add_assoc]

theorem total_occurrences_of_clear : ∀ {lines : List Text}, (∀ line ∈ lines, Clear marker line) →
    total (occurrences marker) lines = 0
  | [], _ => rfl
  | line :: lines, hl => by
    have ih := total_occurrences_of_clear fun l (hm : l ∈ lines) => hl l (List.mem_cons_of_mem _ hm)
    rw [total, (hl line List.mem_cons_self).absent, ih]

/-- Lines hold a marker as often as the one of them that is not clear of it. -/
theorem IsMarker.occurrences_join_of_clear (h : IsMarker marker) {before after : List Text}
    {line : Text} (hb : ∀ l ∈ before, Clear marker l) (hl : isClosed line = true)
    (ha : ∀ l ∈ after, Clear marker l) :
    occurrences marker (join ['\n'] (before ++ line :: after)) = occurrences marker line := by
  have hclosed : ∀ l ∈ before ++ line :: after, isClosed l = true := by
    simp only [List.forall_mem_append, List.forall_mem_cons]
    exact ⟨fun l hm => (hb l hm).closed, hl, fun l hm => (ha l hm).closed⟩
  rw [h.occurrences_join hclosed, total_append, total, total_occurrences_of_clear hb,
    total_occurrences_of_clear ha, Nat.zero_add, Nat.add_zero]

/-- What stands between two markers on lines of their own are the lines between them. -/
theorem between?_lines {start stop : Text} (hstart : IsMarker start) (hstop : IsMarker stop)
    {before inside after : List Text} (hb : ∀ line ∈ before, Clear start line)
    (hi : ∀ line ∈ inside, Clear stop line) (ha : after ≠ []) :
    between? start stop (join ['\n'] (before ++ start :: (inside ++ stop :: after)))
      = some ('\n' :: unlines inside) := by
  have hfeed : Clear stop ['\n'] := hstop.clear_of_not_mem (by decide)
  have hinside : Clear stop ('\n' :: unlines inside) := hfeed.append hstop (Clear.unlines hstop hi)
  rw [join_append (by simp) start before, join_append ha stop inside]
  exact between?_append hstart hstop (Clear.unlines hstart hb) hinside _

end BlockDocument.Text
