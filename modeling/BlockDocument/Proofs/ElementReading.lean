import BlockDocument.Proofs.JsonGrammar

/-!
# Reading and passing over elements

What an element is read as does not depend on where it stands: not on the text before it, nor on
that behind it, as long as this closes it (`exists_readsAs`). It is passed over even if it cannot
be read (`passesOver`). The loops over items and members are followed from any item on, the comma
in front of it being the next to be read.
-/

namespace BlockDocument.Json

variable {ε α : Type} {t : Text}

/-! ## How elements begin -/

/-- That a text begins with a character that closes nothing, up to blank characters. -/
def Opens (t : Text) : Prop :=
  ∃ d s, t.dropWhile Cursor.isSpace = d :: s ∧ d ∉ [']', '}']

theorem Opens.of_cons {d : Char} (hspace : Cursor.isSpace d = false) (hd : d ∉ [']', '}'])
    (t : Text) : Opens (d :: t) :=
  ⟨d, t, dropWhile_cons hspace t, hd⟩

theorem Opens.rest {c : Cursor} {tail : Text} (h : Opens t) (hc : c.Stands (t ++ tail)) :
    ∃ d s, c.skipSpace.rest = d :: s ∧ d ∉ [']', '}'] := by
  obtain ⟨d, s, hs, hd⟩ := h
  refine ⟨d, s ++ tail, ?_, hd⟩
  rw [hc, List.dropWhile_append, hs]
  rfl

theorem Opens.spaced {before : Text} (hbefore : IsSpacing before) (h : Opens t) (after : Text) :
    Opens (before ++ (t ++ after)) := by
  obtain ⟨d, s, hs, hd⟩ := h
  refine ⟨d, s ++ after, ?_, hd⟩
  rw [dropWhile_spacing hbefore, List.dropWhile_append, hs]
  rfl

theorem not_isSpace_of_isDigit {d : Char} (h : Text.isDigit d = true) :
    Cursor.isSpace d = false ∧ d ∉ ['[', ']', '{', '}'] := by
  constructor
  · refine Bool.eq_false_iff.2 fun hspace => ?_
    simp only [Cursor.isSpace, Bool.or_eq_true, beq_iff_eq] at hspace
    obtain ((rfl | rfl) | rfl) | rfl := hspace <;> cases h
  · intro hd
    simp only [List.mem_cons, List.not_mem_nil, or_false] at hd
    obtain rfl | rfl | rfl | rfl := hd <;> cases h

theorem IsScalar.exists_cons (ht : IsScalar t) :
    ∃ d s, t = d :: s ∧ Cursor.isSpace d = false ∧ d ∉ ['[', ']', '{', '}'] := by
  cases ht with
  | word ht =>
    simp only [List.mem_cons, List.not_mem_nil, or_false] at ht
    obtain rfl | rfl | rfl := ht
    · exact ⟨'n', "ull".toList, rfl, rfl, by decide⟩
    · exact ⟨'t', "rue".toList, rfl, rfl, by decide⟩
    · exact ⟨'f', "alse".toList, rfl, rfl, by decide⟩
  | positive ht =>
    obtain ⟨d, s, hs, hd⟩ := ht.head []
    rw [List.append_nil] at hs
    exact ⟨d, s, hs, not_isSpace_of_isDigit hd⟩
  | negative ht => exact ⟨'-', _, rfl, rfl, by decide⟩
  | text ht => exact ⟨'"', _, rfl, rfl, by decide⟩

theorem Member.opens {IsKey : Text → Prop} {m : Member} (hm : m.HasKey IsKey) :
    Opens m.source :=
  ⟨'"', m.key ++ '"' :: (m.behind ++ ':' :: m.value),
    (dropWhile_spacing hm.before _).trans (dropWhile_cons rfl _), by decide⟩

theorem IsElement.opens {n : Nat} (ht : IsElement n t) : Opens t := by
  induction ht with
  | scalar ht =>
    obtain ⟨d, s, rfl, hspace, hd⟩ := ht.exists_cons
    exact .of_cons hspace (fun h => hd (by revert h; simp; tauto)) s
  | array => exact .of_cons rfl (by decide) _
  | object => exact .of_cons rfl (by decide) _
  | spaced hbefore _ _ ih => exact ih.spaced hbefore _

/-! ## Passing over -/

/-- That a text is passed over as a value, whatever closes it. -/
def PassesOver (ε : Type) (t : Text) : Prop :=
  ∀ (c : Cursor) (tail : Text), Closes tail → c.Stands (t ++ tail) →
    ∃ c', c'.Stands tail ∧ PassesValue ε c c'

theorem PassesOver.spaced {before after : Text} (hbefore : IsSpacing before)
    (h : PassesOver ε t) (hafter : IsSpacing after) :
    PassesOver ε (before ++ (t ++ after)) := by
  intro c tail htail hc
  rw [List.append_assoc, List.append_assoc, Cursor.Stands.spacing hbefore] at hc
  obtain ⟨c', hc', hpass⟩ := h c (after ++ tail) ((Closes.spacing hafter).2 htail) hc
  exact ⟨c', (Cursor.Stands.spacing hafter).1 hc', hpass⟩

theorem IsScalar.rest_skipSpace (ht : IsScalar t) {c : Cursor} {tail : Text}
    (hc : c.Stands (t ++ tail)) : c.skipSpace.rest = t ++ tail := by
  obtain ⟨d, s, rfl, hspace, -⟩ := ht.exists_cons
  exact hc.rest hspace

theorem PassesOver.of_isScalar (ht : IsScalar t) : PassesOver ε t := by
  intro c tail htail hc
  obtain ⟨o, ho⟩ := exists_scans_scalar (ε := ε) ht
  obtain ⟨c', hrest, hskip, -⟩ := ho c.skipSpace tail htail.ends (ht.rest_skipSpace hc)
  exact ⟨c', .of_rest hrest, .of_skipScalar hskip⟩

/-- That a text is passed over as an item of an array or a member of an object. -/
structure PassesPart (ε : Type) (frame : Frame) (part : Text) : Prop where
  opens : Opens part
  passes : ∀ (c : Cursor) (tail : Text), Closes tail → c.Stands (part ++ tail) →
    ∃ d c', (skipKey frame c : Except (Stop ε) Cursor) = .ok d ∧
      d.rest.length ≤ c.rest.length ∧ PassesValue ε d c' ∧ c'.Stands tail

variable {frame : Frame} {parts : List Text} {tail : Text}

theorem closes_parts (frame : Frame) (parts : List Text) (tail : Text) :
    Closes (parts.flatMap (',' :: ·) ++ frame.closer :: tail) := by
  rcases parts with _ | ⟨part, parts⟩
  · cases frame <;> rintro d ⟨⟩ <;> decide
  · rintro d ⟨⟩
    exact .inl rfl

/-- What is left of an array or object behind one of its parts. -/
theorem passes_next (hparts : ∀ part ∈ parts, PassesPart ε frame part) : ∀ {c : Cursor},
    c.Stands (parts.flatMap (',' :: ·) ++ frame.closer :: tail) →
      ∃ c', c'.rest = tail ∧ ∀ stack, Passes ε .next (frame :: stack) stack 1 c c' := by
  have hspace : Cursor.isSpace frame.closer = false := by cases frame <;> rfl
  have hcomma : frame.closer ≠ ',' := by cases frame <;> decide
  induction parts with
  | nil =>
    intro c hc
    rw [List.flatMap_nil, List.nil_append] at hc
    refine ⟨c.skipSpace.advance, hc.advance hspace, fun stack => .of_end ?_ fun m => ?_⟩
    · have hlength := length_advance (hc.rest hspace)
      have hle := length_skipSpace_le c
      omega
    · rw [skipFrom]
      simp only [hc.rest hspace, if_neg hcomma, if_true]
  | cons part parts ih =>
    intro c hc
    rw [List.flatMap_cons, List.cons_append, List.cons_append, List.append_assoc] at hc
    obtain ⟨d, e, hkey, hlength, hvalue, he⟩ := (hparts part (List.mem_cons_self ..)).passes
      c.skipSpace.advance _ (closes_parts frame parts tail) (.of_rest (hc.advance rfl))
    obtain ⟨c', hrest, hnext⟩ := ih (fun p hp => hparts p (List.mem_cons_of_mem _ hp)) he
    refine ⟨c', hrest, fun stack => .of_value ?_ (fun m => ?_) hvalue (hnext stack)⟩
    · have hadvance := length_advance_le c.skipSpace
      have hle := length_skipSpace_le c
      omega
    · conv_lhs => rw [skipFrom]
      simp only [hc.rest rfl, if_true, hkey]

theorem join_comma (part : Text) : ∀ parts : List Text,
    Text.join [','] (part :: parts) = part ++ parts.flatMap (',' :: ·)
  | [] => (List.append_nil part).symm
  | next :: parts => by
    show part ++ [','] ++ Text.join [','] (next :: parts) = _
    rw [join_comma next parts, List.append_assoc, List.flatMap_cons]
    rfl

/-- The inside of an array or object. -/
theorem passes_first {space : Text} (hspacing : IsSpacing space)
    (hparts : ∀ part ∈ parts, PassesPart ε frame part) {c : Cursor}
    (hc : c.Stands (space ++ (Text.join [','] parts ++ frame.closer :: tail))) :
    ∃ c', c'.rest = tail ∧ ∀ stack, Passes ε .first (frame :: stack) stack 1 c c' := by
  have hspace : Cursor.isSpace frame.closer = false := by cases frame <;> rfl
  rw [Cursor.Stands.spacing hspacing] at hc
  rcases parts with _ | ⟨part, parts⟩
  · have hc : c.Stands (frame.closer :: tail) := hc
    refine ⟨c.skipSpace.advance, hc.advance hspace, fun stack => .of_end ?_ fun m => ?_⟩
    · have hlength := length_advance (hc.rest hspace)
      have hle := length_skipSpace_le c
      omega
    · rw [skipFrom]
      simp only [hc.rest hspace, if_true]
  · rw [join_comma, List.append_assoc] at hc
    have hpart := hparts part (List.mem_cons_self ..)
    obtain ⟨ch, s, hs, hch⟩ := hpart.opens.rest hc
    have hclose : ch ≠ frame.closer := by
      rintro rfl
      cases frame <;> exact hch (by decide)
    obtain ⟨d, e, hkey, hlength, hvalue, he⟩ :=
      hpart.passes c.skipSpace _ (closes_parts frame parts tail) hc.skipSpace
    obtain ⟨c', hrest, hnext⟩ := passes_next (fun p hp => hparts p (List.mem_cons_of_mem _ hp)) he
    refine ⟨c', hrest, fun stack => .of_value ?_ (fun m => ?_) hvalue (hnext stack)⟩
    · exact hlength.trans (length_skipSpace_le c)
    · conv_lhs => rw [skipFrom]
      simp only [hs, if_neg hclose, hkey]

/-- An array or object is passed over if its parts are. -/
theorem PassesOver.of_parts {opener : Char} {space : Text} (frame : Frame)
    (hopener : Cursor.isSpace opener = false)
    (hround : ∀ (c : Cursor) (rest : Text), c.skipSpace.rest = opener :: rest → ∀ m stack,
      (skipFrom (m + 1) .value stack c : Outcome ε Unit)
        = skipFrom m .first (frame :: stack) c.skipSpace.advance)
    (hspace : IsSpacing space) (hparts : ∀ part ∈ parts, PassesPart ε frame part) :
    PassesOver ε (enclosed opener frame.closer space parts) := by
  intro c tail _ hc
  have hrest : c.skipSpace.rest
      = opener :: (space ++ (Text.join [','] parts ++ frame.closer :: tail)) := by
    have hc : c.Stands
        (opener :: ((space ++ (Text.join [','] parts ++ [frame.closer])) ++ tail)) := hc
    rw [hc.rest hopener, List.append_assoc, List.append_assoc]
    rfl
  obtain ⟨c', hc', hpass⟩ := passes_first hspace hparts
    (.of_rest ((rest_advance _).trans (congrArg List.tail hrest)))
  refine ⟨c', .of_rest hc', .of_skipSpace (.of_inside frame hrest (fun m stack => ?_) hpass)⟩
  rw [hround c.skipSpace _ (by rw [skipSpace_skipSpace, hrest]), skipSpace_skipSpace]

theorem PassesPart.of_item (hopens : Opens t) (ht : PassesOver ε t) : PassesPart ε .array t :=
  ⟨hopens, fun c tail htail hc =>
    let ⟨c', hc', hpass⟩ := ht c tail htail hc
    ⟨c, c', rfl, le_rfl, hpass, hc'⟩⟩

/-- Where reading goes on behind the key of a member. -/
theorem Member.HasKey.readColon {IsKey : Text → Prop} {m : Member} (hm : m.HasKey IsKey)
    {c : Cursor} (hc : c.rest = m.behind ++ ':' :: (m.value ++ tail)) :
    (readColon c : Except (Stop ε) Cursor) = .ok c.skipSpace.advance
      ∧ c.skipSpace.advance.rest = m.value ++ tail := by
  have hcolon : c.Stands (':' :: (m.value ++ tail)) :=
    (Cursor.Stands.spacing hm.behind).1 (.of_rest hc)
  exact ⟨by simp only [Json.readColon, hcolon.rest rfl], hcolon.advance rfl⟩

theorem Member.HasKey.advance {IsKey : Text → Prop} {m : Member} (hm : m.HasKey IsKey)
    {c : Cursor} (hc : c.Stands (m.source ++ tail)) :
    c.skipSpace.rest = '"' :: c.skipSpace.advance.rest ∧
      c.skipSpace.advance.rest = m.key ++ '"' :: (m.behind ++ ':' :: (m.value ++ tail)) := by
  have hquote : c.Stands ('"' :: (m.key ++ '"' :: (m.behind ++ ':' :: (m.value ++ tail)))) := by
    rw [← Cursor.Stands.spacing hm.before]
    simpa [Member.source] using hc
  rw [hquote.rest rfl, hquote.advance rfl]
  exact ⟨rfl, rfl⟩

theorem PassesPart.of_member {m : Member} (hm : m.HasKey IsCharacters)
    (hvalue : PassesOver ε m.value) : PassesPart ε .object m.source := by
  refine ⟨Member.opens hm, fun c tail htail hc => ?_⟩
  obtain ⟨hquote, hrest⟩ := hm.advance hc
  obtain ⟨o, ho⟩ := exists_scansString (ε := ε) hm.key
  obtain ⟨d, hd, hskip, -⟩ := ho _ _ hrest
  obtain ⟨hcolon, he⟩ := hm.readColon (ε := ε) hd
  obtain ⟨c', hc', hpass⟩ := hvalue _ tail htail (.of_rest he)
  refine ⟨_, c', by simp only [skipKey, hquote, hskip, hcolon], ?_, hpass, hc'⟩
  have hle := length_skipSpace_le c
  have hadvance := length_advance_le c.skipSpace
  have hlength := congrArg List.length hrest
  have hvalue := congrArg List.length he
  simp only [List.length_append, List.length_cons] at hlength hvalue
  omega

/-- Every element is passed over. -/
theorem IsElement.passesOver {n : Nat} (ht : IsElement n t) : PassesOver ε t := by
  induction ht with
  | scalar ht => exact .of_isScalar ht
  | array hspace hitems ih =>
    refine .of_parts .array rfl (fun c rest hc m stack => ?_) hspace fun item hitem =>
      .of_item (hitems item hitem).opens (ih item hitem)
    rw [skipFrom]
    simp only [hc]
  | object hspace hkeys hvalues ih =>
    refine .of_parts .object rfl (fun c rest hc m stack => ?_) hspace fun part hpart => ?_
    · rw [skipFrom]
      simp only [hc]
    · obtain ⟨m, hm, rfl⟩ := List.mem_map.1 hpart
      exact .of_member (hkeys m hm) (ih m hm)
  | spaced hbefore _ hafter ih => exact ih.spaced hbefore hafter

/-! ## Reading -/

/-- That a text is read as `o`, or refused if that is nothing, whatever closes it. -/
def ReadsAs (read : Cursor → Outcome ε α) (t : Text) (o : Option α) : Prop :=
  ∀ (c : Cursor) (tail : Text), Closes tail → c.Stands (t ++ tail) →
    ∃ c', c'.Stands tail ∧ (read c).toOption = o.map (·, c')

theorem ReadsAs.spaced {read : Cursor → Outcome ε α} {o : Option α} {before after : Text}
    (hbefore : IsSpacing before) (h : ReadsAs read t o) (hafter : IsSpacing after) :
    ReadsAs read (before ++ (t ++ after)) o := by
  intro c tail htail hc
  rw [List.append_assoc, List.append_assoc, Cursor.Stands.spacing hbefore] at hc
  obtain ⟨c', hc', hread⟩ := h c (after ++ tail) ((Closes.spacing hafter).2 htail) hc
  exact ⟨c', (Cursor.Stands.spacing hafter).1 hc', hread⟩

/-- What is refused is refused anywhere. -/
theorem ReadsAs.of_none {read : Cursor → Outcome ε α}
    (h : ∀ (c : Cursor) (tail : Text), Closes tail → c.Stands (t ++ tail) →
      (read c).toOption = none) : ReadsAs read t none :=
  fun c tail htail hc => ⟨⟨tail, {}⟩, .of_rest rfl, h c tail htail hc⟩

theorem mapM_cons_eq {β : Type} (f : α → Option β) (a : α) (as : List α) :
    (a :: as).mapM f = (f a).bind fun b => (as.mapM f).map (b :: ·) := by
  rw [List.mapM_cons]
  rcases f a with _ | b
  · rfl
  · rcases as.mapM f <;> rfl

theorem mapM_congr {β : Type} {f g : α → Option β} {as : List α} (h : ∀ a ∈ as, f a = g a) :
    as.mapM f = as.mapM g := by
  induction as with
  | nil => rfl
  | cons a as ih =>
    rw [mapM_cons_eq, mapM_cons_eq, h a (List.mem_cons_self ..),
      ih fun b hb => h b (List.mem_cons_of_mem _ hb)]

section Items

variable {read : Nat → Cursor → Outcome ε α} {f : Text → Option α} {items : List Text}

theorem readItems_end {fuel index : Nat} {c : Cursor} (hc : c.Stands (']' :: tail)) :
    ∃ c', c'.rest = tail ∧
      (readItems read (fuel + 1) index c).toOption = some ([], c') := by
  refine ⟨c.skipSpace.advance, hc.advance rfl, ?_⟩
  rw [toOption_readItems]
  simp only [nextItem, hc.rest rfl, if_true]
  rfl

/-- An item and then what follows it. -/
theorem readItems_item {fuel index : Nat} {c d e : Cursor} {o : Option α} {as : Option (List α)}
    (hnext : (nextItem index c : Outcome ε Bool) = .ok (true, d))
    (hitem : (read index d).toOption = o.map (·, e))
    (hrest : ∃ c', c'.rest = tail ∧
      (readItems read fuel (index + 1) e).toOption = as.map (·, c')) :
    ∃ c', c'.rest = tail ∧ (readItems read (fuel + 1) index c).toOption
      = (o.bind fun a => as.map (a :: ·)).map (·, c') := by
  obtain ⟨c', hc', hread⟩ := hrest
  refine ⟨c', hc', ?_⟩
  rw [toOption_readItems, hnext]
  show ((read index d).toOption.bind fun item => _) = _
  rw [hitem]
  rcases o with _ | a
  · rfl
  · show ((readItems read fuel (index + 1) e).toOption.map fun items => _) = _
    rw [hread]
    rcases as <;> rfl

/-- What is left of an array behind one of its items. -/
theorem readItems_next (hitems : ∀ t ∈ items, Opens t ∧ ∀ index, ReadsAs (read index) t (f t)) :
    ∀ {fuel index : Nat} {c : Cursor}, items.length < fuel → index ≠ 0 →
      c.Stands (items.flatMap (',' :: ·) ++ ']' :: tail) →
        ∃ c', c'.rest = tail ∧
          (readItems read fuel index c).toOption = (items.mapM f).map (·, c') := by
  induction items with
  | nil =>
    intro fuel index c hfuel _ hc
    obtain ⟨fuel, rfl⟩ := Nat.exists_eq_succ_of_ne_zero (Nat.ne_zero_of_lt hfuel)
    exact readItems_end hc
  | cons t items ih =>
    intro fuel index c hfuel hindex hc
    obtain ⟨fuel, rfl⟩ := Nat.exists_eq_succ_of_ne_zero (Nat.ne_zero_of_lt hfuel)
    rw [List.flatMap_cons, List.cons_append, List.cons_append, List.append_assoc] at hc
    obtain ⟨hopens, hread⟩ := hitems t (List.mem_cons_self ..)
    have hat : c.skipSpace.advance.Stands (t ++ (items.flatMap (',' :: ·) ++ ']' :: tail)) :=
      .of_rest (hc.advance rfl)
    obtain ⟨d, s, hs, hd⟩ := hopens.rest hat
    have hclose : d ≠ ']' := fun h => hd (h ▸ List.mem_cons_self ..)
    obtain ⟨e, he, hitem⟩ :=
      hread index c.skipSpace.advance.skipSpace _ (closes_parts .array items tail) hat.skipSpace
    rw [mapM_cons_eq]
    refine readItems_item ?_ hitem
      (ih (fun t ht => hitems t (List.mem_cons_of_mem _ ht)) (Nat.lt_of_succ_lt_succ hfuel)
        (Nat.succ_ne_zero index) he)
    simp only [nextItem, hc.rest rfl, hs, if_neg hindex, if_neg hclose, if_true]
    rfl

/-- The inside of an array. -/
theorem readItems_first {space : Text} (hspace : IsSpacing space)
    (hitems : ∀ t ∈ items, Opens t ∧ ∀ index, ReadsAs (read index) t (f t)) {fuel : Nat}
    (hfuel : items.length < fuel) {c : Cursor}
    (hc : c.Stands (space ++ (Text.join [','] items ++ ']' :: tail))) :
    ∃ c', c'.rest = tail ∧
      (readItems read fuel 0 c).toOption = (items.mapM f).map (·, c') := by
  obtain ⟨fuel, rfl⟩ := Nat.exists_eq_succ_of_ne_zero (Nat.ne_zero_of_lt hfuel)
  rw [Cursor.Stands.spacing hspace] at hc
  rcases items with _ | ⟨t, items⟩
  · exact readItems_end hc
  · rw [join_comma, List.append_assoc] at hc
    obtain ⟨hopens, hread⟩ := hitems t (List.mem_cons_self ..)
    obtain ⟨d, s, hs, hd⟩ := hopens.rest hc
    have hclose : d ≠ ']' := fun h => hd (h ▸ List.mem_cons_self ..)
    obtain ⟨e, he, hitem⟩ :=
      hread 0 c.skipSpace _ (closes_parts .array items tail) hc.skipSpace
    rw [mapM_cons_eq]
    refine readItems_item ?_ hitem
      (readItems_next (fun t ht => hitems t (List.mem_cons_of_mem _ ht))
        (Nat.lt_of_succ_lt_succ hfuel) Nat.one_ne_zero he)
    simp only [nextItem, hs, if_neg hclose, if_true]

end Items

section Members

variable {read : List Text → Text → Cursor → Outcome ε α} {g : Member → Option (Text × α)}
  {members : List Member}

/-- That a member is read as the key and value `o`, or refused if that is nothing, whatever closes
it and whatever keys were before. -/
def ReadsMember (read : List Text → Text → Cursor → Outcome ε α) (m : Member)
    (o : Option (Text × α)) : Prop :=
  ∀ (seen : List Text) (c : Cursor) (tail : Text), Closes tail → c.Stands (m.source ++ tail) →
    ∃ c', c'.Stands tail ∧
      ((readString c.skipSpace.advance : Outcome ε Text).toOption.bind fun key =>
        (read seen key.1 key.2).toOption.map fun a => ((key.1, a.1), a.2)) = o.map (·, c')

theorem ReadsMember.unique {m : Member} {o o' : Option (Text × α)} (h : ReadsMember read m o)
    (h' : ReadsMember read m o') : o = o' := by
  have hc : (⟨m.source, {}⟩ : Cursor).Stands (m.source ++ []) :=
    .of_rest (List.append_nil _).symm
  obtain ⟨c, -, hread⟩ := h [] _ [] (fun _ hd => nomatch hd) hc
  obtain ⟨c', -, hread'⟩ := h' [] _ [] (fun _ hd => nomatch hd) hc
  have hsame := hread.symm.trans hread'
  rcases o with _ | a <;> rcases o' with _ | a' <;> cases hsame <;> rfl

theorem readsMember_of_value {IsKey : Text → Prop} {m : Member} (hm : m.HasKey IsKey)
    {key : Option Text} (hkey : ScansString ε m.key key) {r : Cursor → Outcome ε α} {o : Option α}
    (hread : ∀ seen name, key = some name → read seen name = readAfterColon r)
    (hr : ReadsAs r m.value o) : ReadsMember read m (key.bind fun name => o.map (name, ·)) := by
  intro seen c tail htail hc
  obtain ⟨-, hrest⟩ := hm.advance hc
  obtain ⟨d, hd, -, hname⟩ := hkey _ _ hrest
  obtain ⟨hcolon, he⟩ := hm.readColon (ε := ε) hd
  obtain ⟨c', hc', hvalue⟩ := hr _ tail htail (.of_rest he)
  refine ⟨c', hc', ?_⟩
  rw [hname]
  rcases key with _ | name
  · rfl
  · simp only [Option.map_some, Option.bind_some, hread seen name rfl, readAfterColon, hcolon,
      hvalue, Option.map_map]
    rfl

theorem readMembers_end {fuel : Nat} {seen : List Text} {c : Cursor}
    (hc : c.Stands ('}' :: tail)) :
    ∃ c', c'.rest = tail ∧
      (readMembers read (fuel + 1) seen c).toOption = some ([], c') := by
  refine ⟨c.skipSpace.advance, hc.advance rfl, ?_⟩
  rw [toOption_readMembers]
  simp only [nextMember, hc.rest rfl, if_true]
  rfl

/-- A member and then what follows it. -/
theorem readMembers_member {fuel : Nat} {seen : List Text} {c d e : Cursor}
    {o : Option (Text × α)} {as : Option (List (Text × α))}
    (hnext : (nextMember seen.isEmpty c : Outcome ε (Option Text))
      = Outcome.map some (readString d))
    (hmember : ((readString d : Outcome ε Text).toOption.bind fun key =>
      (read seen key.1 key.2).toOption.map fun a => ((key.1, a.1), a.2)) = o.map (·, e))
    (hrest : ∀ key, ∃ c', c'.rest = tail ∧
      (readMembers read fuel (key :: seen) e).toOption = as.map (·, c')) :
    ∃ c', c'.rest = tail ∧ (readMembers read (fuel + 1) seen c).toOption
      = (o.bind fun a => as.map (a :: ·)).map (·, c') := by
  rw [toOption_readMembers, hnext, toOption_map]
  rcases hkey : (readString d : Outcome ε Text) with f | ⟨key, d'⟩ <;> rw [hkey] at hmember
  · rcases o with _ | a <;> cases hmember
    exact ⟨⟨tail, {}⟩, rfl, rfl⟩
  · obtain ⟨c', hc', hread⟩ := hrest key
    refine ⟨c', hc', ?_⟩
    show ((read seen key d').toOption.bind fun value => _) = _
    have hmember : ((read seen key d').toOption.map fun a => ((key, a.1), a.2)) = _ := hmember
    rcases hvalue : read seen key d' with f | ⟨a, e'⟩ <;> rw [hvalue] at hmember <;>
      rcases o with _ | b <;> cases hmember
    · rfl
    · show ((readMembers read fuel (key :: seen) e').toOption.map fun members => _) = _
      rw [hread]
      rcases as <;> rfl

/-- What is left of an object behind one of its members. -/
theorem readMembers_next {IsKey : Text → Prop} (hkeys : ∀ m ∈ members, m.HasKey IsKey)
    (hmembers : ∀ m ∈ members, ReadsMember read m (g m)) :
    ∀ {fuel : Nat} {seen : List Text} {c : Cursor}, members.length < fuel → seen ≠ [] →
      c.Stands ((members.map Member.source).flatMap (',' :: ·) ++ '}' :: tail) →
        ∃ c', c'.rest = tail ∧
          (readMembers read fuel seen c).toOption = (members.mapM g).map (·, c') := by
  induction members with
  | nil =>
    intro fuel seen c hfuel _ hc
    obtain ⟨fuel, rfl⟩ := Nat.exists_eq_succ_of_ne_zero (Nat.ne_zero_of_lt hfuel)
    exact readMembers_end hc
  | cons m members ih =>
    intro fuel seen c hfuel hseen hc
    obtain ⟨fuel, rfl⟩ := Nat.exists_eq_succ_of_ne_zero (Nat.ne_zero_of_lt hfuel)
    rw [List.map_cons, List.flatMap_cons, List.cons_append, List.cons_append,
      List.append_assoc] at hc
    have hat : c.skipSpace.advance.Stands (m.source
        ++ ((members.map Member.source).flatMap (',' :: ·) ++ '}' :: tail)) :=
      .of_rest (hc.advance rfl)
    obtain ⟨hquote, -⟩ := (hkeys m (List.mem_cons_self ..)).advance hat
    obtain ⟨e, he, hmember⟩ := hmembers m (List.mem_cons_self ..) seen c.skipSpace.advance _
      (closes_parts .object _ tail) hat
    rw [mapM_cons_eq]
    refine readMembers_member ?_ hmember fun key =>
      ih (fun m hm => hkeys m (List.mem_cons_of_mem _ hm))
        (fun m hm => hmembers m (List.mem_cons_of_mem _ hm)) (Nat.lt_of_succ_lt_succ hfuel)
        (List.cons_ne_nil key seen) he
    simp only [nextMember, hc.rest rfl, hquote, List.isEmpty_eq_false_iff.2 hseen, if_true]
    rfl

/-- The inside of an object. -/
theorem readMembers_first {IsKey : Text → Prop} {space : Text} (hspace : IsSpacing space)
    (hkeys : ∀ m ∈ members, m.HasKey IsKey) (hmembers : ∀ m ∈ members, ReadsMember read m (g m))
    {fuel : Nat} (hfuel : members.length < fuel) {c : Cursor}
    (hc : c.Stands (space ++ (Text.join [','] (members.map Member.source) ++ '}' :: tail))) :
    ∃ c', c'.rest = tail ∧
      (readMembers read fuel [] c).toOption = (members.mapM g).map (·, c') := by
  obtain ⟨fuel, rfl⟩ := Nat.exists_eq_succ_of_ne_zero (Nat.ne_zero_of_lt hfuel)
  rw [Cursor.Stands.spacing hspace] at hc
  rcases members with _ | ⟨m, members⟩
  · exact readMembers_end hc
  · rw [List.map_cons, join_comma, List.append_assoc] at hc
    obtain ⟨hquote, -⟩ := (hkeys m (List.mem_cons_self ..)).advance hc
    obtain ⟨e, he, hmember⟩ := hmembers m (List.mem_cons_self ..) [] c _
      (closes_parts .object _ tail) hc
    rw [mapM_cons_eq]
    refine readMembers_member ?_ hmember fun key =>
      readMembers_next (fun m hm => hkeys m (List.mem_cons_of_mem _ hm))
        (fun m hm => hmembers m (List.mem_cons_of_mem _ hm)) (Nat.lt_of_succ_lt_succ hfuel)
        (List.cons_ne_nil key []) he
    simp only [nextMember, hquote, List.isEmpty_nil, if_true]
    rfl

end Members

/-! ## Elements -/

theorem length_le_join {part : Text} (h : part ∈ parts) :
    part.length ≤ (Text.join [','] parts).length := by
  rcases parts with _ | ⟨first, parts⟩
  · cases h
  rw [join_comma, List.length_append]
  obtain rfl | h := List.mem_cons.1 h
  · omega
  · obtain ⟨before, after, rfl⟩ := List.append_of_mem h
    simp only [List.flatMap_append, List.flatMap_cons, List.length_append, List.length_cons]
    omega

theorem length_parts_le (parts : List Text) :
    parts.length ≤ (Text.join [','] parts).length + 1 := by
  rcases parts with _ | ⟨first, parts⟩
  · exact Nat.zero_le _
  rw [join_comma, List.length_append, List.length_cons]
  have h : parts.length ≤ (parts.flatMap (',' :: ·)).length := by
    induction parts with
    | nil => exact le_rfl
    | cons part parts ih =>
      simp only [List.flatMap_cons, List.length_append, List.length_cons]
      omega
  omega

/-- The parts of an array or object are shorter than it, and fewer than it has characters. -/
theorem length_lt_enclosed {opener closer : Char} {space : Text} {fuel : Nat}
    (h : (enclosed opener closer space parts).length < fuel) :
    parts.length < fuel ∧ ∀ part ∈ parts, part.length < fuel := by
  simp only [enclosed, List.length_cons, List.length_append, List.length_nil] at h
  have hparts := length_parts_le parts
  refine ⟨by omega, fun part hpart => ?_⟩
  have hpart := length_le_join hpart
  omega

theorem Member.length_value (m : Member) : m.value.length < m.source.length := by
  simp only [source, List.length_append, List.length_cons]
  omega

theorem rest_enclosed {c : Cursor} {opener closer : Char} {space : Text}
    (hopener : Cursor.isSpace opener = false)
    (hc : c.Stands (enclosed opener closer space parts ++ tail)) :
    c.skipSpace.rest = opener :: c.skipSpace.advance.rest ∧
      c.skipSpace.advance.rest = space ++ (Text.join [','] parts ++ closer :: tail) := by
  have hc : c.Stands (opener :: (space ++ (Text.join [','] parts ++ closer :: tail))) := by
    simpa [enclosed] using hc
  rw [hc.rest hopener, hc.advance hopener]
  exact ⟨rfl, rfl⟩

theorem readsAs_of_isScalar {o : Option Json}
    (ho : Scans (ε := ε) skipScalar readScalar t o) (ht : IsScalar t) (fuel depth : Nat) :
    ReadsAs (ε := ε) (readValue fuel depth) t o := by
  intro c tail htail hc
  have hrest := ht.rest_skipSpace hc
  obtain ⟨c', hc', -, hread⟩ := ho c.skipSpace tail htail.ends hrest
  obtain ⟨d, s, rfl, -, hd⟩ := ht.exists_cons
  refine ⟨c', .of_rest hc', ?_⟩
  rw [← hread]
  unfold readValue
  simp only
  split
  · cases hrest.symm.trans ‹_›
    exact absurd (by decide) hd
  · cases hrest.symm.trans ‹_›
    exact absurd (by decide) hd
  · cases hrest.symm.trans ‹_›
    exact absurd (by decide) hd
  · cases hrest.symm.trans ‹_›
    exact absurd (by decide) hd
  · rfl

theorem readsAs_array {space : Text} {items : List Text} {fuel depth : Nat}
    {f : Text → Option Json} (hspace : IsSpacing space) (hopens : ∀ t ∈ items, Opens t)
    (hitems : ∀ t ∈ items, ReadsAs (ε := ε) (readValue fuel depth) t (f t))
    (hfuel : items.length < fuel) :
    ReadsAs (ε := ε) (readValue fuel (depth + 1)) (arraySource space items)
      ((items.mapM f).map .array) := by
  intro c tail _ hc
  obtain ⟨hopener, hrest⟩ := rest_enclosed rfl hc
  have hparts : ∀ t ∈ items, Opens t ∧ ∀ index : Nat,
      ReadsAs ((fun _ => readValue fuel depth : Nat → Cursor → Outcome ε Json) index) t (f t) :=
    fun t ht => ⟨hopens t ht, fun _ => hitems t ht⟩
  obtain ⟨c', hc', hread⟩ := readItems_first hspace hparts hfuel (.of_rest hrest)
  refine ⟨c', .of_rest hc', ?_⟩
  unfold readValue
  simp only [hopener]
  rw [toOption_map, hread, Option.map_map, Option.map_map]
  rfl

theorem readsAs_object {space : Text} {members : List Member} {fuel depth : Nat}
    {g : Member → Option (Text × Json)} (hspace : IsSpacing space)
    (hkeys : ∀ m ∈ members, m.HasKey IsCharacters)
    (hmembers : ∀ m ∈ members,
      ReadsMember (ε := ε) (fun _ _ => readAfterColon (readValue fuel depth)) m (g m))
    (hfuel : members.length < fuel) :
    ReadsAs (ε := ε) (readValue fuel (depth + 1)) (objectSource space members)
      ((members.mapM g).map .object) := by
  intro c tail _ hc
  obtain ⟨hopener, hrest⟩ := rest_enclosed rfl hc
  obtain ⟨c', hc', hread⟩ := readMembers_first hspace hkeys hmembers hfuel (.of_rest hrest)
  refine ⟨c', .of_rest hc', ?_⟩
  unfold readValue
  simp only [hopener]
  rw [toOption_map, hread, Option.map_map, Option.map_map]
  rfl

theorem readsAs_enclosed_zero {opener closer : Char} {space : Text}
    (hopener : opener = '[' ∨ opener = '{') (fuel : Nat) :
    ReadsAs (ε := ε) (readValue fuel 0) (enclosed opener closer space parts) none := by
  refine .of_none fun c tail _ hc => ?_
  have hspace : Cursor.isSpace opener = false := by obtain rfl | rfl := hopener <;> rfl
  obtain ⟨hrest, -⟩ := rest_enclosed hspace hc
  unfold readValue
  obtain rfl | rfl := hopener <;> simp only [hrest] <;> rfl

/-- What is inside of an array or object, given what there is to each depth that is left. -/
def inside (o : Nat → Option α) : (depth : Nat) → Option α
  | 0 => none
  | depth + 1 => o depth

/-- That something is the same for each depth from `n` on. -/
def SteadyFrom (n : Nat) (o : Nat → Option α) : Prop := ∀ depth, n ≤ depth → o depth = o n

theorem SteadyFrom.inside {n : Nat} {o : Nat → Option α} (h : SteadyFrom n o) :
    SteadyFrom (n + 1) (inside o)
  | 0, hdepth => absurd hdepth (Nat.not_succ_le_zero n)
  | depth + 1, hdepth => h depth (Nat.le_of_succ_le_succ hdepth)

/-- What an element is read as does not depend on where it stands, and on the depth that is left
only if it is nested more deeply. -/
theorem IsElement.exists_readsAs {n : Nat} (ht : IsElement n t) : ∃ o : Nat → Option Json,
    SteadyFrom n o ∧ ∀ fuel depth, t.length < fuel →
      ReadsAs (ε := ε) (readValue fuel depth) t (o depth) := by
  induction ht with
  | scalar ht =>
    obtain ⟨o, ho⟩ := exists_scans_scalar (ε := ε) ht
    exact ⟨fun _ => o, fun _ _ => rfl, fun fuel depth _ => readsAs_of_isScalar ho ht fuel depth⟩
  | @array n space items hspace hitems ih =>
    choose! o hsteady hread using ih
    refine ⟨inside fun depth => (items.mapM fun t => o t depth).map .array,
      .inside fun depth hdepth => ?_, fun fuel depth hfuel => ?_⟩
    · exact congrArg _ (mapM_congr fun t ht => hsteady t ht depth hdepth)
    · obtain ⟨hcount, hlength⟩ := length_lt_enclosed hfuel
      rcases depth with _ | depth
      · exact readsAs_enclosed_zero (.inl rfl) fuel
      · exact readsAs_array hspace (fun t ht => (hitems t ht).opens)
          (fun t ht => hread t ht fuel depth (hlength t ht)) hcount
  | @object n space members hspace hkeys hvalues ih =>
    choose! o hsteady hread using ih
    have hnames : ∀ m ∈ members, ∃ key : Option Text, ScansString ε m.key key :=
      fun m hm => exists_scansString (hkeys m hm).key
    choose! key hkey using hnames
    refine ⟨inside fun depth => (members.mapM fun m =>
        (key m).bind fun name => (o m depth).map (name, ·)).map .object,
      .inside fun depth hdepth => ?_, fun fuel depth hfuel => ?_⟩
    · refine congrArg _ (mapM_congr fun m hm => ?_)
      rw [hsteady m hm depth hdepth]
    · obtain ⟨hcount, hlength⟩ := length_lt_enclosed hfuel
      rw [List.length_map] at hcount
      rcases depth with _ | depth
      · exact readsAs_enclosed_zero (.inr rfl) fuel
      · refine readsAs_object hspace hkeys (fun m hm => ?_) hcount
        have hvalue := m.length_value.trans (hlength m.source (List.mem_map_of_mem hm))
        exact readsMember_of_value (hkeys m hm) (hkey m hm) (fun _ _ _ => rfl)
          (hread m hm fuel depth hvalue)
  | spaced hbefore _ hafter ih =>
    obtain ⟨o, hsteady, hread⟩ := ih
    refine ⟨o, hsteady, fun fuel depth hfuel => (hread fuel depth ?_).spaced hbefore hafter⟩
    simp only [List.length_append] at hfuel
    omega

end BlockDocument.Json
