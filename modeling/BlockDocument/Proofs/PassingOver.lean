import Mathlib.Data.List.DropRight
import BlockDocument.Json.Skip

/-!
# Values that are passed over

A value is passed over with less care than it is read with, so whatever can be read can also be
passed over, up to the same place (`skipValue_of_readValue`). The states of a string map to those
of a string that is passed over. Arrays and objects are read by recursion and passed over with a
stack, so the lemmas about them are stated for any stack below the value: after as many rounds as
the value takes, what follows it is next.
-/

namespace BlockDocument.Json

variable {ε α : Type}

/-! ## Cursors -/

theorem rest_advance (c : Cursor) : c.advance.rest = c.rest.tail := by
  unfold Cursor.advance
  split <;> rename_i h <;> rw [h] <;> rfl

theorem rest_skip : ∀ (n : Nat) (c : Cursor), (c.skip n).rest = c.rest.drop n
  | 0, _ => rfl
  | n + 1, c => by
    rw [Cursor.skip, rest_skip n, rest_advance, List.drop_tail]

theorem rest_skip_takeWhile (p : Char → Bool) (c : Cursor) :
    (c.skip (c.rest.takeWhile p).length).rest = c.rest.dropWhile p := by
  have h : (c.rest.takeWhile p ++ c.rest.dropWhile p).drop (c.rest.takeWhile p).length
      = c.rest.dropWhile p := List.drop_left
  rwa [List.takeWhile_append_dropWhile, ← rest_skip] at h

theorem rest_skipSpace (c : Cursor) : c.skipSpace.rest = c.rest.dropWhile Cursor.isSpace :=
  rest_skip_takeWhile _ c

@[simp]
theorem skipSpace_skipSpace (c : Cursor) : c.skipSpace.skipSpace = c.skipSpace := by
  have h : c.skipSpace.rest.takeWhile Cursor.isSpace = [] := by
    rw [rest_skipSpace, List.takeWhile_eq_nil_iff]
    exact fun h => by simpa using List.dropWhile_get_zero_not _ _ h
  conv_lhs => rw [Cursor.skipSpace, h]
  rfl

theorem length_skipSpace_le (c : Cursor) : c.skipSpace.rest.length ≤ c.rest.length := by
  rw [rest_skipSpace]
  exact (List.dropWhile_suffix _).length_le

theorem length_advance {c : Cursor} {d : Char} {t : Text} (h : c.rest = d :: t) :
    c.advance.rest.length + 1 = c.rest.length := by
  rw [rest_advance, h]
  rfl

theorem length_advance_le (c : Cursor) : c.advance.rest.length ≤ c.rest.length := by
  rw [rest_advance, List.length_tail]
  exact Nat.sub_le _ _

theorem length_skip (c : Cursor) (n : Nat) : (c.skip n).rest.length = c.rest.length - n := by
  rw [rest_skip, List.length_drop]

/-! ## Strings -/

/-- What a character of a string is part of, when the string is passed over. -/
def StringState.skipState : StringState → SkipState
  | .text | .pair _ => .text
  | .escape | .pairEscape _ => .escape
  | .hex size value _ => .hex size value.isSome

/-- Where passing over a string goes on, if reading it goes on. -/
theorem skipStringFrom_cons (state : StringState) (p : Position) (c : Char) (rest : Text) :
    match stringStep state c with
    | .closed => skipStringFrom state.skipState p (c :: rest)
        = (.ok ((), ⟨rest, p.over c⟩) : Outcome ε Unit)
    | .next state' => skipStringFrom state.skipState p (c :: rest)
        = (skipStringFrom state'.skipState (p.over c) rest : Outcome ε Unit)
    | .emit _ => skipStringFrom state.skipState p (c :: rest)
        = (skipStringFrom .text (p.over c) rest : Outcome ε Unit)
    | .stop _ => True := by
  cases state with
  | text =>
    simp only [stringStep, StringState.skipState, skipStringFrom]
    split_ifs <;> simp_all
  | escape =>
    simp only [stringStep, StringState.skipState, skipStringFrom]
    rcases escaped? c with _ | d <;> split_ifs <;> simp_all
  | hex size value high =>
    have hvalid : (value.isSome && (Text.hexValue? c).isSome)
        = (value.bind fun v => (Text.hexValue? c).map (16 * v + ·)).isSome := by
      cases value <;> cases Text.hexValue? c <;> rfl
    simp only [stringStep, StringState.skipState, skipStringFrom, hvalid]
    generalize (value.bind fun v => (Text.hexValue? c).map (16 * v + ·)) = unit
    by_cases hsize : size + c.utf8Size < 4
    · simp only [if_pos hsize]
    · rcases unit with _ | unit
      · simp only [if_neg hsize]
      · simp only [if_neg hsize, Option.isSome_some, if_true, hexStep]
        cases high <;> split_ifs <;> simp_all
  | pair high =>
    simp only [stringStep, StringState.skipState, skipStringFrom]
    split_ifs <;> simp_all
  | pairEscape high =>
    simp only [stringStep, StringState.skipState, skipStringFrom]
    split_ifs <;> simp_all

theorem skipStringFrom_of_readStringFrom : ∀ {t : Text} {state : StringState} {p : Position}
    {s : Text} {c : Cursor}, (readStringFrom state p t : Outcome ε Text) = .ok (s, c) →
      (skipStringFrom state.skipState p t : Outcome ε Unit) = .ok ((), c)
  | [], state, p, s, c, h => by
    unfold readStringFrom at h
    cases h
  | d :: rest, state, p, s, c, h => by
    have hskip := skipStringFrom_cons (ε := ε) state p d rest
    unfold readStringFrom at h
    rcases hstep : stringStep state d with _ | state' | e | f <;> rw [hstep] at h hskip
    · cases h
      exact hskip
    · exact hskip.trans (skipStringFrom_of_readStringFrom h)
    · rcases hr : (readStringFrom .text (p.over d) rest : Outcome ε Text) with stop | ⟨s', c'⟩ <;>
        rw [hr] at h
      · cases h
      · cases h
        exact hskip.trans (skipStringFrom_of_readStringFrom hr)
    · cases h

theorem length_of_skipStringFrom : ∀ {t : Text} {state : SkipState} {p : Position} {c : Cursor},
    (skipStringFrom state p t : Outcome ε Unit) = .ok ((), c) → c.rest.length < t.length
  | [], state, p, c, h => by
    unfold skipStringFrom at h
    cases h
  | d :: rest, state, p, c, h => by
    cases state <;> simp only [skipStringFrom] at h <;> split_ifs at h
    all_goals first
      | exact Nat.lt_succ_of_lt (length_of_skipStringFrom h)
      | (cases h; exact Nat.lt_succ_self _)

/-! ## Numbers -/

theorem realOf_eq_ok {negative : Bool} {parts : RealParts} {c c' : Cursor} {v : Json}
    (h : (realOf negative parts c : Outcome ε Json) = .ok (v, c')) : c' = c := by
  unfold realOf at h
  split at h
  · cases h
    rfl
  · cases h

theorem skipExponent_of_readExponent {negative : Bool} {parts : RealParts} {c c' : Cursor}
    {v : Json} (h : (readExponent negative parts c : Outcome ε Json) = .ok (v, c')) :
    (skipExponent c : Outcome ε Unit) = .ok ((), c') := by
  unfold readExponent at h
  unfold skipExponent
  simp only at h ⊢
  generalize (if (decide (c.rest.head? = some '-') || decide (c.rest.head? = some '+')) = true
    then c.advance else c) = signed at h ⊢
  split at h
  · cases h
  split at h
  · cases h
  rename_i hd
  rw [if_neg hd]
  split at h
  · split at h
    · cases h
    · cases h
      rfl
  · rw [realOf_eq_ok h]

theorem skipRealEnd_of_readRealEnd {negative : Bool} {parts : RealParts} {c c' : Cursor}
    {v : Json} (h : (readRealEnd negative parts c : Outcome ε Json) = .ok (v, c')) :
    (skipRealEnd c : Outcome ε Unit) = .ok ((), c') := by
  unfold readRealEnd at h
  split at h
  · rename_i he
    simp only [skipRealEnd, he]
    exact skipExponent_of_readExponent h
  · rename_i he
    simp only [skipRealEnd, he]
    exact skipExponent_of_readExponent h
  · rename_i he hE
    unfold skipRealEnd
    split
    · exact absurd ‹_› (he _)
    · exact absurd ‹_› (hE _)
    · rw [realOf_eq_ok h]

theorem skipRealEnd_of_readFraction {negative : Bool} {parts : RealParts} {c c' : Cursor}
    {v : Json} (h : (readFraction negative parts c : Outcome ε Json) = .ok (v, c')) :
    (digitsAt c).isEmpty = false ∧
      (skipRealEnd (c.skip (digitsAt c).length) : Outcome ε Unit) = .ok ((), c') := by
  unfold readFraction at h
  simp only at h
  split at h
  · cases h
  · rename_i hd
    exact ⟨Bool.eq_false_iff.2 hd, skipRealEnd_of_readRealEnd h⟩

theorem skipNumber_of_readNumber {negative : Bool} {c c' : Cursor} {v : Json}
    (h : (readNumber negative c : Outcome ε Json) = .ok (v, c')) :
    (skipNumber c : Outcome ε Unit) = .ok ((), c') := by
  unfold readNumber at h
  unfold skipNumber
  simp only at h ⊢
  split at h
  · cases h
  split at h
  · cases h
  rename_i hd
  rw [if_neg hd]
  split at h
  · cases h
  rename_i hz
  rw [if_neg hz]
  split at h
  · rename_i hp
    obtain ⟨hf, h⟩ := skipRealEnd_of_readFraction h
    simp only [hp]
    rw [hf]
    exact h
  · rename_i he
    simp only [he, skipRealEnd]
    exact skipExponent_of_readExponent h
  · rename_i he
    simp only [he, skipRealEnd]
    exact skipExponent_of_readExponent h
  · rename_i hp he hE
    split
    · exact absurd ‹_› (hp _)
    unfold skipRealEnd
    split
    · exact absurd ‹_› (he _)
    · exact absurd ‹_› (hE _)
    split at h
    · cases h
      rfl
    · rw [realOf_eq_ok h]

theorem length_skip_digits {c : Cursor} (h : (digitsAt c).isEmpty = false) :
    (c.skip (digitsAt c).length).rest.length < c.rest.length := by
  have hpos : 0 < (digitsAt c).length :=
    List.length_pos_of_ne_nil fun hn => by rw [hn] at h; cases h
  have hle : (digitsAt c).length ≤ c.rest.length := (List.takeWhile_prefix _).length_le
  rw [length_skip]
  omega

theorem length_of_skipExponent {c c' : Cursor}
    (h : (skipExponent c : Outcome ε Unit) = .ok ((), c')) :
    c'.rest.length ≤ c.rest.length := by
  unfold skipExponent at h
  simp only at h
  have hsigned : (if (decide (c.rest.head? = some '-') || decide (c.rest.head? = some '+')) = true
      then c.advance else c).rest.length ≤ c.rest.length := by
    split
    · exact length_advance_le c
    · exact le_rfl
  generalize (if (decide (c.rest.head? = some '-') || decide (c.rest.head? = some '+')) = true
    then c.advance else c) = signed at h hsigned
  split at h
  · cases h
  · cases h
    rw [length_skip]
    omega

theorem length_of_skipRealEnd {c c' : Cursor}
    (h : (skipRealEnd c : Outcome ε Unit) = .ok ((), c')) :
    c'.rest.length ≤ c.rest.length := by
  unfold skipRealEnd at h
  split at h
  · exact (length_of_skipExponent h).trans (length_advance_le c)
  · exact (length_of_skipExponent h).trans (length_advance_le c)
  · cases h
    exact le_rfl

theorem length_of_skipNumber {c c' : Cursor}
    (h : (skipNumber c : Outcome ε Unit) = .ok ((), c')) :
    c'.rest.length < c.rest.length := by
  unfold skipNumber at h
  simp only at h
  split at h
  · cases h
  rename_i hd
  have hlt := length_skip_digits (Bool.eq_false_iff.2 hd)
  split at h
  · cases h
  split at h
  · split at h
    · cases h
    · refine ((length_of_skipRealEnd h).trans ?_).trans_lt hlt
      rw [length_skip]
      exact (Nat.sub_le _ _).trans (length_advance_le _)
  · exact (length_of_skipRealEnd h).trans_lt hlt

/-! ## Values without items or members -/

theorem length_of_readWord : ∀ {word : Text} {c c' : Cursor},
    (readWord word c : Outcome ε Unit) = .ok ((), c') → c'.rest.length ≤ c.rest.length
  | [], c, c', h => by
    cases h
    exact le_rfl
  | w :: word, c, c', h => by
    unfold readWord at h
    split at h
    · cases h
    · split at h
      · exact (length_of_readWord h).trans (length_advance_le c)
      · cases h

theorem length_of_skipScalar {c c' : Cursor}
    (h : (skipScalar c : Outcome ε Unit) = .ok ((), c')) : c'.rest.length < c.rest.length := by
  unfold skipScalar at h
  split at h
  · cases h
  · have := length_advance ‹_›
    have := length_of_readWord h
    omega
  · have := length_advance ‹_›
    have := length_of_readWord h
    omega
  · have := length_advance ‹_›
    have := length_of_readWord h
    omega
  · have := length_advance ‹_›
    have : c'.rest.length < c.advance.rest.length := length_of_skipStringFrom h
    omega
  · have := length_advance ‹_›
    have := length_of_skipNumber h
    omega
  · split at h
    · exact length_of_skipNumber h
    · cases h

theorem Outcome.map_eq_ok {β : Type} {f : α → β} {o : Outcome ε α} {b : β} {c : Cursor}
    (h : Outcome.map f o = .ok (b, c)) : ∃ a, o = .ok (a, c) ∧ f a = b := by
  rcases o with e | ⟨a, c'⟩
  · cases h
  · cases h
    exact ⟨a, rfl, rfl⟩

theorem skipScalar_of_readScalar {c c' : Cursor} {v : Json}
    (h : (readScalar c : Outcome ε Json) = .ok (v, c')) :
    (skipScalar c : Outcome ε Unit) = .ok ((), c') := by
  unfold readScalar at h
  split at h
  · cases h
  · obtain ⟨_, hword, -⟩ := Outcome.map_eq_ok h
    simpa only [skipScalar, ‹c.rest = _›] using hword
  · obtain ⟨_, hword, -⟩ := Outcome.map_eq_ok h
    simpa only [skipScalar, ‹c.rest = _›] using hword
  · obtain ⟨_, hword, -⟩ := Outcome.map_eq_ok h
    simpa only [skipScalar, ‹c.rest = _›] using hword
  · obtain ⟨_, hstring, -⟩ := Outcome.map_eq_ok h
    simp only [skipScalar, ‹c.rest = _›]
    exact skipStringFrom_of_readStringFrom hstring
  · simp only [skipScalar, ‹c.rest = _›]
    exact skipNumber_of_readNumber h
  · rename_i ch tail hn ht hf hq hm hc
    have hnext : ∀ d t, c.rest = d :: t → d = ch := fun d t hd => by
      rw [hc] at hd
      cases hd
      rfl
    split at h
    · rename_i hdigit
      unfold skipScalar
      split
      · rename_i hnil
        rw [hc] at hnil
        cases hnil
      · exact absurd (hnext _ _ ‹_›).symm hn
      · exact absurd (hnext _ _ ‹_›).symm ht
      · exact absurd (hnext _ _ ‹_›).symm hf
      · exact absurd (hnext _ _ ‹_›).symm hq
      · exact absurd (hnext _ _ ‹_›).symm hm
      · rename_i hc'
        rw [hnext _ _ hc', if_pos hdigit]
        exact skipNumber_of_readNumber h
    · cases h

/-! ## Commas and ends -/

/-- Looks for the next item of an array: whether there is one, and the place before it or behind
the array. -/
def nextItem (index : Nat) (c : Cursor) : Outcome ε Bool :=
  let c := c.skipSpace
  match c.rest with
  | [] => stopPast c .eofList
  | ch :: _ =>
    if ch = ']' then .ok (false, c.advance)
    else if index = 0 then .ok (true, c)
    else if ch = ',' then
      let c := c.advance.skipSpace
      match c.rest with
      | [] => stopPast c .eofValue
      | ch :: _ => if ch = ']' then stopPast c .trailingComma else .ok (true, c)
    else stopPast c .expectedListEnd

theorem readItems_succ (read : Nat → Cursor → Outcome ε α) (fuel index : Nat) (c : Cursor) :
    readItems read (fuel + 1) index c =
      match nextItem index c with
      | .error e => .error e
      | .ok (false, c) => .ok ([], c)
      | .ok (true, c) =>
        match read index c with
        | .error e => .error (e.settle arrayEndPlace)
        | .ok (a, c) =>
          match readItems read fuel (index + 1) c with
          | .error e => .error e
          | .ok (as, c) => .ok (a :: as, c) := by
  rw [readItems]
  simp only
  split
  · rename_i h
    simp only [nextItem, h]
    rfl
  · rename_i h
    simp only [nextItem, h]
    rfl
  · rename_i ch rest hclose h
    have hclose : ch ≠ ']' := hclose
    simp only [nextItem, h, if_neg hclose]
    split_ifs
    · rfl
    · rcases c.skipSpace.advance.skipSpace.rest with _ | ⟨ch, rest⟩
      · rfl
      · by_cases hch : ch = ']'
        · subst hch
          rfl
        · simp only [if_neg hch]
          split
          · cases ‹ch :: rest = []›
          · exact absurd (List.cons.inj ‹ch :: rest = ']' :: _›).1 hch
          · rfl
    · rfl

/-- Looks for the next member of an object: its key if there is one, and the place behind the key
or behind the object. -/
def nextMember (first : Bool) (c : Cursor) : Outcome ε (Option Text) :=
  let c := c.skipSpace
  match c.rest with
  | [] => stopPast c .eofObject
  | ch :: _ =>
    if ch = '}' then .ok (none, c.advance)
    else if first then
      if ch = '"' then Outcome.map some (readString c.advance) else stopPast c .keyNotText
    else if ch = ',' then
      let c := c.advance.skipSpace
      match c.rest with
      | [] => stopPast c .eofValue
      | ch :: _ =>
        if ch = '"' then Outcome.map some (readString c.advance)
        else if ch = '}' then stopPast c .trailingComma
        else stopPast c .keyNotText
    else stopPast c .expectedObjectEnd

theorem readMembers_succ (read : List Text → Text → Cursor → Outcome ε α) (fuel : Nat)
    (seen : List Text) (c : Cursor) :
    readMembers read (fuel + 1) seen c =
      match nextMember seen.isEmpty c with
      | .error e => .error e
      | .ok (none, c) => .ok ([], c)
      | .ok (some key, c) =>
        match read seen key c with
        | .error e => .error (e.settle objectEndPlace)
        | .ok (a, c) =>
          match readMembers read fuel (key :: seen) c with
          | .error e => .error e
          | .ok (as, c) => .ok ((key, a) :: as, c) := by
  rw [readMembers]
  simp only
  split
  · rename_i h
    simp only [nextMember, h]
    rfl
  · rename_i h
    simp only [nextMember, h]
    rfl
  · rename_i ch rest hclose h
    have hclose : ch ≠ '}' := hclose
    simp only [nextMember, h, if_neg hclose]
    split_ifs
    · rcases (readString c.skipSpace.advance : Outcome ε Text) with e | ⟨key, d⟩ <;> rfl
    · rfl
    · split
      · rename_i h
        simp only [h]
        rfl
      · rename_i h
        simp only [h]
        rcases (readString c.skipSpace.advance.skipSpace.advance : Outcome ε Text)
          with e | ⟨key, d⟩ <;> rfl
      · rename_i h
        simp only [h]
        rfl
      · rename_i hnil hquote hclose
        rcases hrest : c.skipSpace.advance.skipSpace.rest with _ | ⟨ch, rest⟩
        · exact absurd hrest hnil
        · have hquote : ch ≠ '"' := by
            rintro rfl
            exact hquote _ hrest
          have hclose : ch ≠ '}' := by
            rintro rfl
            exact hclose _ hrest
          simp only [if_neg hquote, if_neg hclose]
          rfl
    · rfl

/-! ## Arrays and objects -/

/-- What is passed over in an array or object, in front of its first item or member or behind
one. -/
def SkipGoal.inside (first : Bool) : SkipGoal := if first then .first else .next

theorem skipFrom_value (n : Nat) (stack : List Frame) (c : Cursor) :
    (skipFrom (n + 1) .value stack c : Outcome ε Unit) =
      skipFrom (n + 1) .value stack c.skipSpace := by
  simp only [skipFrom, skipSpace_skipSpace]

theorem skipFrom_of_nextItem_end {index : Nat} {c d : Cursor}
    (h : (nextItem index c : Outcome ε Bool) = .ok (false, d)) :
    d.rest.length < c.rest.length ∧ ∀ m stack,
      (skipFrom (m + 1) (.inside (index = 0)) (.array :: stack) c : Outcome ε Unit)
        = skipFrom m .next stack d := by
  have hspace := length_skipSpace_le c
  unfold nextItem at h
  simp only at h
  split at h
  · cases h
  · rename_i ch rest hrest
    split_ifs at h with hclose
    · cases h
      subst hclose
      have := length_advance hrest
      refine ⟨by omega, fun m stack => ?_⟩
      unfold SkipGoal.inside
      split <;> simp only [skipFrom, hrest] <;> rfl
    · cases h
    · split at h
      · cases h
      · split at h <;> cases h
    · cases h

theorem skipFrom_of_nextItem {index : Nat} {c d : Cursor}
    (h : (nextItem index c : Outcome ε Bool) = .ok (true, d)) :
    d.rest.length ≤ c.rest.length ∧ ∀ m stack,
      (skipFrom (m + 2) (.inside (index = 0)) (.array :: stack) c : Outcome ε Unit)
        = skipFrom (m + 1) .value (.array :: stack) d := by
  have hspace := length_skipSpace_le c
  unfold nextItem at h
  simp only at h
  split at h
  · cases h
  · rename_i ch rest hrest
    split_ifs at h with hclose hfirst hcomma
    · cases h
    · cases h
      refine ⟨hspace, fun m stack => ?_⟩
      have hgoal : SkipGoal.inside (index = 0) = .first := if_pos (decide_eq_true hfirst)
      conv_lhs => rw [hgoal, skipFrom]
      simp only [hrest]
      exact if_neg hclose
    · split at h
      · cases h
      · split at h
        · cases h
        · cases h
          -- reading has passed the space behind the comma, passing over does so before the value
          have hle := length_advance_le c.skipSpace
          have hspace' := length_skipSpace_le c.skipSpace.advance
          refine ⟨by omega, fun m stack => ?_⟩
          have hgoal : SkipGoal.inside (index = 0) = .next :=
            if_neg (mt of_decide_eq_true hfirst)
          rw [← skipFrom_value]
          conv_lhs => rw [hgoal, skipFrom]
          simp only [hrest]
          exact if_pos hcomma
    · cases h

theorem skipFrom_of_nextMember_end {first : Bool} {c d : Cursor}
    (h : (nextMember first c : Outcome ε (Option Text)) = .ok (none, d)) :
    d.rest.length < c.rest.length ∧ ∀ m stack,
      (skipFrom (m + 1) (.inside first) (.object :: stack) c : Outcome ε Unit)
        = skipFrom m .next stack d := by
  have hspace := length_skipSpace_le c
  unfold nextMember at h
  simp only at h
  split at h
  · cases h
  · rename_i ch rest hrest
    split_ifs at h with hclose
    · cases h
      subst hclose
      have := length_advance hrest
      refine ⟨by omega, fun m stack => ?_⟩
      unfold SkipGoal.inside
      split <;> simp only [skipFrom, hrest] <;> rfl
    · obtain ⟨key, -, hkey⟩ := Outcome.map_eq_ok h
      cases hkey
    · cases h
    · split at h
      · cases h
      · split_ifs at h
        · obtain ⟨key, -, hkey⟩ := Outcome.map_eq_ok h
          cases hkey
        · cases h
        · cases h
    · cases h

theorem skipKey_of_readString {c d e : Cursor} {key rest : Text}
    (hrest : c.skipSpace.rest = '"' :: rest)
    (hkey : (readString c.skipSpace.advance : Outcome ε Text) = .ok (key, d))
    (hcolon : (readColon d : Except (Stop ε) Cursor) = .ok e) :
    d.rest.length ≤ c.rest.length ∧ (skipKey .object c : Except (Stop ε) Cursor) = .ok e := by
  have hspace := length_skipSpace_le c
  have hadvance := length_advance_le c.skipSpace
  have hskip : (skipString c.skipSpace.advance : Outcome ε Unit) = .ok ((), d) :=
    skipStringFrom_of_readStringFrom hkey
  have hlt : d.rest.length < c.skipSpace.advance.rest.length := length_of_skipStringFrom hskip
  refine ⟨by omega, ?_⟩
  simp only [skipKey, hrest, hskip, hcolon]

theorem skipFrom_of_nextMember {first : Bool} {key : Text} {c d e : Cursor}
    (h : (nextMember first c : Outcome ε (Option Text)) = .ok (some key, d))
    (hcolon : (readColon d : Except (Stop ε) Cursor) = .ok e) :
    d.rest.length ≤ c.rest.length ∧ ∀ m stack,
      (skipFrom (m + 1) (.inside first) (.object :: stack) c : Outcome ε Unit)
        = skipFrom m .value (.object :: stack) e := by
  have hspace := length_skipSpace_le c
  unfold nextMember at h
  simp only at h
  split at h
  · cases h
  · rename_i ch rest hrest
    split_ifs at h with hclose hfirst hquote hcomma
    · cases h
    · subst hquote
      obtain ⟨key, hkey, hk⟩ := Outcome.map_eq_ok h
      have hspaced : c.skipSpace.skipSpace.rest = '"' :: rest := by rw [skipSpace_skipSpace, hrest]
      rw [← skipSpace_skipSpace c] at hkey
      obtain ⟨hle, hskip⟩ := skipKey_of_readString hspaced hkey hcolon
      refine ⟨hle.trans hspace, fun m stack => ?_⟩
      have hgoal : SkipGoal.inside first = .first := if_pos hfirst
      rw [hgoal, skipFrom]
      simp only [hrest, hskip]
      exact if_neg hclose
    · cases h
    · split at h
      · cases h
      · rename_i ch' rest' hrest'
        split_ifs at h with hquote hclose'
        · subst hquote
          obtain ⟨key, hkey, hk⟩ := Outcome.map_eq_ok h
          obtain ⟨hle, hskip⟩ := skipKey_of_readString hrest' hkey hcolon
          have hadvance := length_advance_le c.skipSpace
          refine ⟨by omega, fun m stack => ?_⟩
          have hgoal : SkipGoal.inside first = .next := if_neg hfirst
          rw [hgoal, skipFrom]
          simp only [hrest, hskip]
          exact if_pos hcomma
        · cases h
        · cases h
    · cases h

theorem readColon_eq_ok {c e : Cursor} (h : (readColon c : Except (Stop ε) Cursor) = .ok e) :
    e.rest.length < c.rest.length := by
  have hspace := length_skipSpace_le c
  unfold readColon at h
  simp only at h
  split at h
  · cases h
  · have := length_advance ‹_›
    cases h
    omega
  · cases h

/-- Passing over what the goal names leads to what follows a value further on. The rounds that
this takes and `spare` more are no more than two for each character in between. -/
def Passes (ε : Type) (goal : SkipGoal) (stack below : List Frame) (spare : Nat)
    (c c' : Cursor) : Prop :=
  ∃ n, n + 2 * c'.rest.length + spare ≤ 2 * c.rest.length ∧
    ∀ m, (skipFrom (m + n + 1) goal stack c : Outcome ε Unit) = skipFrom m .next below c'

/-- Passing over a value leads behind it, whatever is open. -/
def PassesValue (ε : Type) (c c' : Cursor) : Prop :=
  ∀ stack, Passes ε .value stack stack 2 c c'

/-- The end of an array or object. -/
theorem Passes.of_end {goal : SkipGoal} {stack below : List Frame} {c d : Cursor}
    (hlength : d.rest.length < c.rest.length)
    (hround : ∀ m, (skipFrom (m + 1) goal stack c : Outcome ε Unit) = skipFrom m .next below d) :
    Passes ε goal stack below 1 c d :=
  ⟨0, by omega, hround⟩

/-- An item or member whose value comes next, and then what follows it. -/
theorem Passes.of_value {goal : SkipGoal} {stack below : List Frame} {c d e c' : Cursor}
    (hlength : d.rest.length ≤ c.rest.length)
    (hround : ∀ m, (skipFrom (m + 2) goal stack c : Outcome ε Unit)
      = skipFrom (m + 1) .value stack d)
    (hvalue : PassesValue ε d e) (hnext : Passes ε .next stack below 1 e c') :
    Passes ε goal stack below 1 c c' := by
  obtain ⟨n, hn, hvalue⟩ := hvalue stack
  obtain ⟨k, hk, hnext⟩ := hnext
  refine ⟨k + n + 2, by omega, fun m => ?_⟩
  calc (skipFrom (m + (k + n + 2) + 1) goal stack c : Outcome ε Unit)
      = skipFrom (m + k + n + 1 + 2) goal stack c := by ac_rfl
    _ = skipFrom (m + k + 1 + n + 1) .value stack d := by rw [hround]; ac_rfl
    _ = skipFrom (m + k + 1) .next stack e := hvalue (m + k + 1)
    _ = skipFrom m .next below c' := hnext m

/-- The items of an array are passed over if each one is. -/
theorem passes_of_readItems {read : Nat → Cursor → Outcome ε α}
    (hread : ∀ index c a c', read index c = .ok (a, c') → PassesValue ε c c')
    (stack : List Frame) : ∀ {fuel index : Nat} {c c' : Cursor} {as : List α},
      readItems read fuel index c = .ok (as, c') →
        Passes ε (.inside (index = 0)) (.array :: stack) stack 1 c c'
  | 0, index, c, c', as, h => by
    cases h
  | fuel + 1, index, c, c', as, h => by
    rw [readItems_succ] at h
    rcases hnext : (nextItem index c : Outcome ε Bool) with e | ⟨_ | _, d⟩ <;> rw [hnext] at h
    · cases h
    · cases h
      obtain ⟨hlength, hround⟩ := skipFrom_of_nextItem_end hnext
      exact .of_end hlength (hround · stack)
    · obtain ⟨hlength, hround⟩ := skipFrom_of_nextItem hnext
      rcases hitem : read index d with e | ⟨a, e⟩ <;> simp only [hitem] at h
      · cases h
      rcases hitems : readItems read fuel (index + 1) e with f | ⟨as, c''⟩ <;>
        simp only [hitems] at h
      · cases h
      cases h
      exact .of_value hlength (hround · stack) (hread _ _ _ _ hitem)
        (passes_of_readItems hread stack hitems)

/-- The members of an object are passed over if each one's value is. -/
theorem passes_of_readMembers {read : Cursor → Outcome ε α}
    (hread : ∀ c a c', read c = .ok (a, c') → PassesValue ε c c')
    (stack : List Frame) : ∀ {fuel : Nat} {seen : List Text} {c c' : Cursor}
      {as : List (Text × α)},
      readMembers (fun _ _ => readAfterColon read) fuel seen c = .ok (as, c') →
        Passes ε (.inside seen.isEmpty) (.object :: stack) stack 1 c c'
  | 0, seen, c, c', as, h => by
    cases h
  | fuel + 1, seen, c, c', as, h => by
    rw [readMembers_succ] at h
    rcases hnext : (nextMember seen.isEmpty c : Outcome ε (Option Text)) with e | ⟨_ | key, d⟩ <;>
      rw [hnext] at h
    · cases h
    · cases h
      obtain ⟨hlength, hround⟩ := skipFrom_of_nextMember_end hnext
      exact .of_end hlength (hround · stack)
    · rcases hcolon : (readColon d : Except (Stop ε) Cursor) with f | e
      · simp only [readAfterColon, hcolon] at h
        cases h
      obtain ⟨hlength, hround⟩ := skipFrom_of_nextMember hnext hcolon
      simp only [readAfterColon, hcolon] at h
      rcases hvalue : read e with f | ⟨a, e'⟩ <;> simp only [hvalue] at h
      · cases h
      rcases hmembers : readMembers (fun _ _ => readAfterColon read) fuel (key :: seen) e'
        with f | ⟨as, c''⟩ <;> simp only [hmembers] at h
      · cases h
      cases h
      have hlt := readColon_eq_ok hcolon
      exact .of_value (by omega) (fun m => hround (m + 1) stack) (hread _ _ _ hvalue)
        (passes_of_readMembers hread stack hmembers)

theorem PassesValue.of_skipSpace {c c' : Cursor} (h : PassesValue ε c.skipSpace c') :
    PassesValue ε c c' := fun stack => by
  obtain ⟨n, hn, h⟩ := h stack
  have := length_skipSpace_le c
  exact ⟨n, by omega, fun m => by rw [skipFrom_value, h]⟩

/-- An array or object whose inside is passed over. -/
theorem PassesValue.of_inside (frame : Frame) {ch : Char} {rest : Text} {c c' : Cursor}
    (hrest : c.rest = ch :: rest)
    (hround : ∀ m stack, (skipFrom (m + 1) .value stack c : Outcome ε Unit)
      = skipFrom m .first (frame :: stack) c.advance)
    (h : ∀ stack, Passes ε .first (frame :: stack) stack 1 c.advance c') : PassesValue ε c c' := by
  intro stack
  obtain ⟨n, hn, h⟩ := h stack
  have hlength := length_advance hrest
  exact ⟨n + 1, by omega, fun m => (hround (m + (n + 1)) stack).trans (h m)⟩

/-- A value without items or members takes one round. -/
theorem PassesValue.of_skipScalar {c c' : Cursor}
    (h : (skipScalar c.skipSpace : Outcome ε Unit) = .ok ((), c')) : PassesValue ε c c' := by
  refine .of_skipSpace fun stack => ⟨0, ?_, fun m => ?_⟩
  · have hlength := length_of_skipScalar h
    omega
  · rw [skipFrom]
    simp only [skipSpace_skipSpace]
    split
    · simp only [skipScalar, ‹c.skipSpace.rest = _›] at h
      cases h
    · simp only [skipScalar, ‹c.skipSpace.rest = _›] at h
      cases h
    · simp only [h]

/-- Whatever is read is also passed over, up to the same place. -/
theorem passesValue_of_readValue {fuel : Nat} : ∀ {depth : Nat} {c c' : Cursor} {v : Json},
    (readValue fuel depth c : Outcome ε Json) = .ok (v, c') → PassesValue ε c c'
  | depth, c, c', v, h => by
    unfold readValue at h
    simp only at h
    refine .of_skipSpace ?_
    have hspaced := skipSpace_skipSpace c
    generalize c.skipSpace = d at h hspaced
    split at h
    · cases h
    · cases h
    · rename_i depth rest hrest
      obtain ⟨as, h, -⟩ := Outcome.map_eq_ok h
      refine .of_inside .array hrest (fun m stack => ?_) fun stack =>
        passes_of_readItems (fun _ _ _ _ h => passesValue_of_readValue h) stack h
      rw [skipFrom]
      simp only [hspaced, hrest]
    · rename_i depth rest hrest
      obtain ⟨as, h, -⟩ := Outcome.map_eq_ok h
      refine .of_inside .object hrest (fun m stack => ?_) fun stack =>
        passes_of_readMembers (fun _ _ _ h => passesValue_of_readValue h) stack h
      rw [skipFrom]
      simp only [hspaced, hrest]
    · rw [← hspaced] at h
      exact .of_skipScalar (skipScalar_of_readScalar h)

theorem skipValue_of_passesValue {c c' : Cursor} (h : PassesValue ε c c') :
    (skipValue c : Outcome ε Unit) = .ok ((), c') := by
  obtain ⟨n, hn, hpass⟩ := h []
  obtain ⟨m, hm⟩ : ∃ m, 2 * fuelFor c.rest = (m + 1) + n + 1 :=
    ⟨2 * fuelFor c.rest - n - 2, by unfold fuelFor; omega⟩
  rw [skipValue, hm, hpass]
  rfl

/-- Passing over a value leads behind it, if the value can be read. -/
theorem skipValue_of_readValue {fuel depth : Nat} {c c' : Cursor} {v : Json}
    (h : (readValue fuel depth c : Outcome ε Json) = .ok (v, c')) :
    (skipValue c : Outcome ε Unit) = .ok ((), c') :=
  skipValue_of_passesValue (passesValue_of_readValue h)

end BlockDocument.Json
