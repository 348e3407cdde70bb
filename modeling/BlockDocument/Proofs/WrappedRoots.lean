import BlockDocument.Proofs.ElementReading

/-!
# Bare and wrapped roots

An array of blocks may be the root itself or the `blocks` of a root object. Both ways lead to the
same document, whatever other members the object has: of several `blocks` the last counts, and the
others have only to decode. The array is read one level deeper in an object, so it must leave that
level free.

The keys of the object have to be texts. So each half of a surrogate pair stands beside the other
one in a key, as it need not in a value that is passed over.
-/

namespace BlockDocument

namespace Json

variable {ε α : Type} {t : Text}

/-! ## Keys -/

/-- That the characters of a string spell a text. Of the four-digit escapes, those for the halves
of a surrogate pair stand one behind the other. -/
inductive Spells : Text → Text → Prop
  | nil : Spells [] []
  | plain {c : Char} {t s : Text} (hquote : c ≠ '"') (hbackslash : c ≠ '\\')
      (hc : 0x20 ≤ c.toNat) (ht : Spells t s) : Spells (c :: t) (c :: s)
  | escape {c d : Char} {t s : Text} (hc : escaped? c = some d) (ht : Spells t s) :
      Spells ('\\' :: c :: t) (d :: s)
  | unit {digits t s : Text} {n : Nat} (hlength : digits.length = 4)
      (hvalue : Text.valueOf? 16 0 digits = some n) (hhigh : isHighSurrogate n = false)
      (hlow : isLowSurrogate n = false) (ht : Spells t s) :
      Spells ('\\' :: 'u' :: (digits ++ t)) (Char.ofNat n :: s)
  | pair {first second t s : Text} {high low : Nat} (hfirst : first.length = 4)
      (hsecond : second.length = 4) (hvalue : Text.valueOf? 16 0 first = some high)
      (hvalue' : Text.valueOf? 16 0 second = some low) (hhigh : isHighSurrogate high = true)
      (hlow : isLowSurrogate low = true) (ht : Spells t s) :
      Spells ('\\' :: 'u' :: (first ++ '\\' :: 'u' :: (second ++ t)))
        (Char.ofNat (0x10000 + (high - 0xD800) * 0x400 + (low - 0xDC00)) :: s)

/-- That the characters of a string spell some text. -/
def IsName (t : Text) : Prop := ∃ s, Spells t s

theorem isSome_hexValue? {base : Nat} : ∀ {digits : Text} {seen n : Nat},
    Text.valueOf? base seen digits = some n → ∀ c ∈ digits, (Text.hexValue? c).isSome = true
  | [], _, _, _ => List.forall_mem_nil _
  | c :: digits, seen, n, h => by
    simp only [Text.valueOf?, Text.valueIn?, Option.bind_eq_some_iff,
      Option.filter_eq_some_iff] at h
    obtain ⟨v, ⟨hv, -⟩, h⟩ := h
    exact List.forall_mem_cons.2 ⟨by rw [hv]; rfl, isSome_hexValue? h⟩

/-- What spells a text may stand between the quotes of a string. -/
theorem Spells.isCharacters {s : Text} (h : Spells t s) : IsCharacters t := by
  induction h with
  | nil => exact .nil
  | plain hquote hbackslash hc _ ih => exact .plain hquote hbackslash hc ih
  | escape hc _ ih =>
    refine .escape ?_ ih
    unfold escaped? at hc
    split at hc <;> first | decide | cases hc
  | unit hlength hvalue _ _ _ ih => exact .unit hlength (isSome_hexValue? hvalue) ih
  | pair hfirst hsecond hvalue hvalue' _ _ _ ih =>
    exact .unit hfirst (isSome_hexValue? hvalue) (.unit hsecond (isSome_hexValue? hvalue') ih)

/-- That nothing in a text needs an escape. -/
def IsPlain (t : Text) : Prop := ∀ c ∈ t, c ≠ '"' ∧ c ≠ '\\' ∧ 0x20 ≤ c.toNat

instance (t : Text) : Decidable (IsPlain t) :=
  List.decidableBAll (fun c => c ≠ '"' ∧ c ≠ '\\' ∧ 0x20 ≤ c.toNat) t

theorem IsPlain.spells (h : IsPlain t) : Spells t t := by
  induction t with
  | nil => exact .nil
  | cons c t ih =>
    obtain ⟨⟨hquote, hbackslash, hc⟩, ht⟩ := List.forall_mem_cons.1 h
    exact .plain hquote hbackslash hc (ih ht)

/-- That a string is read as a text, with its closing quote, and leaves another text behind. -/
def ReadsTo (ε : Type) (tail : Text) (state : StringState) (t s : Text) : Prop :=
  ∀ p : Position, ∃ c : Cursor, c.rest = tail ∧
    (readStringFrom state p t : Outcome ε Text) = .ok (s, c)

namespace ReadsTo

variable {tail s : Text} {state state' : StringState} {c d : Char}

theorem closed : ReadsTo ε tail .text ('"' :: tail) [] :=
  fun p => ⟨⟨tail, p.over '"'⟩, rfl, rfl⟩

theorem next (hstep : stringStep state c = .next state') (h : ReadsTo ε tail state' t s) :
    ReadsTo ε tail state (c :: t) s := by
  intro p
  rw [readStringFrom, hstep]
  exact h (p.over c)

theorem emit (hstep : stringStep state c = .emit d) (h : ReadsTo ε tail .text t s) :
    ReadsTo ε tail state (c :: t) (d :: s) := by
  intro p
  obtain ⟨e, he, hread⟩ := h (p.over c)
  refine ⟨e, he, ?_⟩
  rw [readStringFrom, hstep]
  simp only [hread]

end ReadsTo

theorem stringStep_hex {c : Char} {size v n : Nat} {high : Option Nat}
    (hc : Text.hexValue? c = some v) :
    stringStep (.hex size (some n) high) c =
      if size + 1 < 4 then .next (.hex (size + 1) (some (16 * n + v)) high)
      else hexStep high (16 * n + v) := by
  have hsize := utf8Size_of_hexValue? (by rw [hc]; rfl)
  simp only [stringStep, hc, hsize]
  rfl

/-- Where the last digit of a unit leads to. -/
theorem exists_lastDigit {digits : Text} {n : Nat} (hlength : digits.length = 4)
    (hvalue : Text.valueOf? 16 0 digits = some n) (high : Option Nat) (tail : Text) :
    ∃ state d, stringStep state d = hexStep high n ∧
      ∀ t s, ReadsTo ε tail state (d :: t) s →
        ReadsTo ε tail (.hex 0 (some 0) high) (digits ++ t) s := by
  obtain ⟨a, b, c, d, rfl⟩ := List.length_eq_four.1 hlength
  simp only [Text.valueOf?, Text.valueIn?, Option.bind_eq_some_iff, Option.filter_eq_some_iff,
    Option.some.injEq] at hvalue
  obtain ⟨va, ⟨ha, -⟩, vb, ⟨hb, -⟩, vc, ⟨hc, -⟩, vd, ⟨hd, -⟩, rfl⟩ := hvalue
  exact ⟨_, d, stringStep_hex hd, fun t s h =>
    .next (stringStep_hex ha) (.next (stringStep_hex hb) (.next (stringStep_hex hc) h))⟩

theorem Spells.readsTo {s : Text} (h : Spells t s) (tail : Text) :
    ReadsTo ε tail .text (t ++ '"' :: tail) s := by
  induction h with
  | nil => exact .closed
  | plain hquote hbackslash hc _ ih =>
    refine .emit ?_ ih
    rw [stringStep, if_neg hquote, if_neg hbackslash, if_neg (Nat.not_lt.2 hc)]
  | @escape c d t s hc _ ih =>
    have hu : c ≠ 'u' := by rintro rfl; cases hc
    refine .next rfl (.emit ?_ ih)
    rw [stringStep, if_neg hu, hc]
  | unit hlength hvalue hhigh hlow _ ih =>
    obtain ⟨state, d, hstep, hread⟩ := exists_lastDigit (ε := ε) hlength hvalue none tail
    rw [List.cons_append, List.cons_append, List.append_assoc]
    refine .next rfl (.next rfl (hread _ _ (.emit (hstep.trans ?_) ih)))
    rw [hexStep, hlow, hhigh]
    rfl
  | @pair first second t s high low hfirst hsecond hvalue hvalue' hhigh hlow _ ih =>
    have hnot : isLowSurrogate high = false := by
      simp only [isHighSurrogate, isLowSurrogate, Bool.and_eq_true, Bool.and_eq_false_iff,
        decide_eq_true_eq, decide_eq_false_iff_not] at hhigh ⊢
      omega
    obtain ⟨state, d, hstep, hread⟩ := exists_lastDigit (ε := ε) hfirst hvalue none tail
    obtain ⟨state', d', hstep', hread'⟩ :=
      exists_lastDigit (ε := ε) hsecond hvalue' (some high) tail
    simp only [List.cons_append, List.append_assoc]
    have hpair : hexStep none high = .next (.pair high) := by
      rw [hexStep, hnot, hhigh]
      rfl
    refine .next rfl (.next rfl (hread _ _ (.next (hstep.trans hpair) (.next rfl (.next rfl
      (hread' _ _ (.emit (hstep'.trans ?_) ih)))))))
    rw [hexStep, if_pos hlow]

/-- The key of a member is read as the text that it spells. -/
theorem Spells.scansString {s : Text} (h : Spells t s) : ScansString ε t (some s) := by
  rintro ⟨rest, p⟩ tail hc
  cases hc
  obtain ⟨c, hc, hread⟩ := h.readsTo (ε := ε) tail p
  exact ⟨c, hc, skipStringFrom_of_readStringFrom hread, toOption_eq_some.2 hread⟩

theorem Spells.unique {s s' : Text} (h : Spells t s) (h' : Spells t s') : s = s' := by
  obtain ⟨c, -, -, hread⟩ := h.scansString (ε := Unit) ⟨t ++ ['"'], {}⟩ [] rfl
  obtain ⟨c', -, -, hread'⟩ := h'.scansString (ε := Unit) ⟨t ++ ['"'], {}⟩ [] rfl
  cases hread.symm.trans hread'
  rfl

/-! ## Arrays -/

/-- That a text is an array, nested no deeper than `depth`, with blank characters around. -/
inductive IsArray : (depth : Nat) → Text → Prop
  | mk {depth : Nat} {before space after : Text} {items : List Text} (hbefore : IsSpacing before)
      (hspace : IsSpacing space) (hitems : ∀ t ∈ items, IsElement depth t)
      (hafter : IsSpacing after) :
      IsArray (depth + 1) (before ++ (arraySource space items ++ after))

/-- What is read of a whole text is what is read of it wherever it is closed. -/
theorem ReadsAs.toOption_readAll {read : (fuel : Nat) → Cursor → Outcome ε α} {o : Option α}
    (h : ReadsAs (read (fuelFor t)) t o) : (readAll read t).toOption = o := by
  obtain ⟨c, hc, hread⟩ := h ⟨t, {}⟩ [] (fun _ hd => nomatch hd)
    (.of_rest (List.append_nil t).symm)
  have hend : c.skipSpace.rest = [] := hc
  unfold readAll
  rcases hr : read (fuelFor t) ⟨t, {}⟩ with e | ⟨a, c'⟩ <;> rw [hr] at hread <;>
    rcases o with _ | b <;> cases hread
  · rfl
  · simp only [hend]
    rfl

end Json

namespace Decode

open Json (Cursor Outcome IsElement IsArray IsSpacing Member ReadsAs SteadyFrom)

variable {α : Type} {t : Text}

theorem toOption_readDecoded_eq (decode : Json → Decoded α) (fuel depth : Nat) (c : Cursor) :
    (readDecoded decode fuel depth c).toOption =
      (Json.readValue fuel depth c : Outcome Mismatch Json).toOption.bind fun value =>
        (decode value.1).toOption.map (·, value.2) := by
  rcases h : (Json.readValue fuel depth c : Outcome Mismatch Json) with e | ⟨v, c'⟩
  · simp only [readDecoded, h]
    rfl
  · exact toOption_readDecoded h

theorem exists_readsAs_readDecoded (decode : Json → Decoded α) {n : Nat} (ht : IsElement n t) :
    ∃ o : Nat → Option α, SteadyFrom n o ∧ ∀ fuel depth, t.length < fuel →
      ReadsAs (readDecoded decode fuel depth) t (o depth) := by
  obtain ⟨o, hsteady, hread⟩ := ht.exists_readsAs (ε := Mismatch)
  refine ⟨fun depth => (o depth).bind fun v => (decode v).toOption, fun depth hdepth => ?_,
    fun fuel depth hfuel c tail htail hc => ?_⟩
  · show (o depth).bind _ = (o n).bind _
    rw [hsteady depth hdepth]
  · obtain ⟨c', hc', hvalue⟩ := hread fuel depth hfuel c tail htail hc
    refine ⟨c', hc', ?_⟩
    rw [toOption_readDecoded_eq, hvalue, Option.bind_map, Option.map_bind]
    rfl

/-- That the items of an array are decoded to `o` of the depth that is left, wherever they stand. -/
def DecodesInside (decode : Json → Decoded α) (space : Text) (items : List Text)
    (o : Nat → Option (List α)) : Prop :=
  ∀ (fuel depth : Nat) (c : Cursor) (tail : Text), (Json.arraySource space items).length < fuel →
    c.Stands (space ++ (Text.join [','] items ++ ']' :: tail)) →
      ∃ c', c'.rest = tail ∧
        (Json.readItems (fun _ => readDecoded decode fuel depth) fuel 0 c).toOption
          = (o depth).map (·, c')

section Arrays

variable {decode : Json → Decoded α} {n : Nat} {space : Text} {items : List Text}
  {o : Nat → Option (List α)}

theorem exists_decodesInside (decode : Json → Decoded α) (hspace : IsSpacing space)
    (hitems : ∀ t ∈ items, IsElement n t) :
    ∃ o : Nat → Option (List α), SteadyFrom n o ∧ DecodesInside decode space items o := by
  have h : ∀ t ∈ items, ∃ o : Nat → Option α, SteadyFrom n o ∧ ∀ fuel depth, t.length < fuel →
      ReadsAs (readDecoded decode fuel depth) t (o depth) :=
    fun t ht => exists_readsAs_readDecoded decode (hitems t ht)
  choose! o hsteady hread using h
  refine ⟨fun depth => items.mapM fun t => o t depth, fun depth hdepth => ?_,
    fun fuel depth c tail hfuel hc => ?_⟩
  · exact Json.mapM_congr fun t ht => hsteady t ht depth hdepth
  · obtain ⟨hcount, hlength⟩ := Json.length_lt_enclosed hfuel
    exact Json.readItems_first hspace
      (fun t ht => ⟨(hitems t ht).opens, fun _ => hread t ht fuel depth (hlength t ht)⟩) hcount hc

theorem DecodesInside.readsAs (h : DecodesInside decode space items o) {fuel : Nat}
    (hfuel : (Json.arraySource space items).length < fuel) (depth : Nat) :
    ReadsAs (readDecodedArray decode fuel (depth + 1)) (Json.arraySource space items)
      (o depth) := by
  intro c tail _ hc
  obtain ⟨hopener, hrest⟩ := Json.rest_enclosed rfl hc
  obtain ⟨c', hc', hitems⟩ := h fuel depth _ tail hfuel (.of_rest hrest)
  refine ⟨c', .of_rest hc', ?_⟩
  unfold readDecodedArray Json.readArray
  simp only [hopener]
  exact hitems

theorem DecodesInside.readsAs_document {o : Nat → Option (List Block)}
    (h : DecodesInside block space items o) {fuel : Nat}
    (hfuel : (Json.arraySource space items).length < fuel) :
    ReadsAs (readDocument fuel) (Json.arraySource space items)
      ((o (Json.nestingLimit - 1)).map .mk) := by
  intro c tail _ hc
  obtain ⟨hopener, hrest⟩ := Json.rest_enclosed rfl hc
  obtain ⟨c', hc', hitems⟩ := h fuel _ _ tail hfuel (.of_rest hrest)
  refine ⟨c', .of_rest hc', ?_⟩
  unfold readDocument
  simp only [hopener]
  rw [Json.toOption_map, hitems, Option.map_map, Option.map_map]
  rfl

/-- What stands where an array is expected is read alike wherever that is. -/
theorem exists_readsAs_readDecodedArray (decode : Json → Decoded α) (ht : IsElement n t)
    (depth : Nat) : ∃ o : Option (List α), ∀ fuel, t.length < fuel →
      ReadsAs (readDecodedArray decode fuel depth) t o := by
  induction ht with
  | scalar ht =>
    refine ⟨none, fun fuel _ => .of_none fun c tail _ hc => ?_⟩
    have hrest := ht.rest_skipSpace hc
    obtain ⟨d, s, rfl, -, hd⟩ := ht.exists_cons
    unfold readDecodedArray Json.readArray
    simp only
    split
    · cases hrest.symm.trans ‹_›
      exact absurd (by decide) hd
    · cases hrest.symm.trans ‹_›
      exact absurd (by decide) hd
    · exact Json.toOption_refuse _ _
  | array hspace hitems =>
    rcases depth with _ | depth
    · refine ⟨none, fun fuel _ => .of_none fun c tail _ hc => ?_⟩
      obtain ⟨hopener, -⟩ := Json.rest_enclosed rfl hc
      unfold readDecodedArray Json.readArray
      simp only [hopener]
      rfl
    · obtain ⟨o, -, ho⟩ := exists_decodesInside decode hspace hitems
      exact ⟨o depth, fun fuel hfuel => ho.readsAs hfuel depth⟩
  | object =>
    refine ⟨none, fun fuel _ => .of_none fun c tail _ hc => ?_⟩
    obtain ⟨hopener, -⟩ := Json.rest_enclosed rfl hc
    unfold readDecodedArray Json.readArray
    simp only [hopener]
    exact Json.toOption_refuse _ _
  | spaced hbefore _ hafter ih =>
    obtain ⟨o, ho⟩ := ih
    refine ⟨o, fun fuel hfuel => .spaced hbefore (ho fuel ?_) hafter⟩
    simp only [List.length_append] at hfuel
    omega

end Arrays

/-- An array under a key is read like one that is the root, one level deeper. -/
theorem exists_readsAs_array {n : Nat} (ht : IsArray n t) :
    ∃ o : Nat → Option (List Block), SteadyFrom (n - 1) o ∧ ∀ fuel, t.length < fuel →
      (∀ depth, ReadsAs (readDecodedArray block fuel (depth + 1)) t (o depth)) ∧
        ReadsAs (readDocument fuel) t ((o (Json.nestingLimit - 1)).map .mk) := by
  obtain @⟨n, before, space, after, items, hbefore, hspace, hitems, hafter⟩ := ht
  obtain ⟨o, hsteady, ho⟩ := exists_decodesInside block hspace hitems
  refine ⟨o, hsteady, fun fuel hfuel => ?_⟩
  have hfuel : (Json.arraySource space items).length < fuel := by
    simp only [List.length_append] at hfuel
    omega
  exact ⟨fun depth => (ho.readsAs hfuel depth).spaced hbefore hafter,
    (ho.readsAs_document hfuel).spaced hbefore hafter⟩

/-! ## Members of a root object -/

section Members

/-- The reader of the members of a root object. -/
abbrev rootReader (fuel : Nat) (_seen : List Text) (key : Text) :
    Cursor → Outcome Mismatch (Option (List Block)) :=
  readRootMember fuel (Json.nestingLimit - 1) key

variable {fuel : Nat} {m : Member}

theorem readsMember_of_blocks {o : Option (List Block)}
    (hm : m.HasKey (Json.Spells · "blocks".toList))
    (h : ReadsAs (readDecodedArray block fuel (Json.nestingLimit - 1)) m.value o) :
    Json.ReadsMember (rootReader fuel) m (o.map fun bs => ("blocks".toList, some bs)) := by
  have hvalue : ReadsAs (fun c => Outcome.map some
      (readDecodedArray block fuel (Json.nestingLimit - 1) c)) m.value (o.map some) := by
    intro c tail htail hc
    obtain ⟨c', hc', hread⟩ := h c tail htail hc
    refine ⟨c', hc', ?_⟩
    rw [Json.toOption_map, hread, Option.map_map, Option.map_map]
    rfl
  have hread : ∀ seen name, some "blocks".toList = some name →
      rootReader fuel seen name = Json.readAfterColon fun c =>
        Outcome.map some (readDecodedArray block fuel (Json.nestingLimit - 1) c) := by
    rintro seen name ⟨⟩
    exact if_pos rfl
  have hmember :=
    Json.readsMember_of_value hm (hm.key.scansString (ε := Mismatch)) hread hvalue
  rwa [Option.bind_some, Option.map_map] at hmember

theorem readsMember_of_other {name : Text} (hm : m.HasKey (Json.Spells · name))
    (hname : name ≠ "blocks".toList) (h : Json.PassesOver Mismatch m.value) :
    Json.ReadsMember (rootReader fuel) m (some (name, none)) := by
  have hvalue : ReadsAs (fun c => Outcome.map (fun _ => (none : Option (List Block)))
      (Json.skipValue c : Outcome Mismatch Unit)) m.value (some none) := by
    intro c tail htail hc
    obtain ⟨c', hc', hpass⟩ := h c tail htail hc
    refine ⟨c', hc', ?_⟩
    simp only [Json.skipValue_of_passesValue hpass]
    rfl
  exact Json.readsMember_of_value hm (hm.key.scansString (ε := Mismatch))
    (fun _ name hname => by
      cases hname
      exact if_neg ‹_›) hvalue

theorem documentOfMembers_eq {earlier later : List (Text × Option (List Block))} {key : Text}
    {blocks : List Block} (hlater : ∀ m ∈ later, m.2 = none) :
    documentOfMembers (earlier ++ (key, some blocks) :: later) = ⟨blocks⟩ := by
  have hnone : later.reverse.findSome? (·.2) = none :=
    List.findSome?_eq_none_iff.2 fun m hm => hlater m (List.mem_reverse.1 hm)
  rw [documentOfMembers, List.reverse_append, List.reverse_cons, List.append_assoc,
    List.findSome?_append, hnone]
  rfl

theorem exists_mapM_eq_some {β γ : Type} {g : β → Option γ} {P : γ → Prop} {l : List β}
    (h : ∀ e ∈ l, ∃ a, g e = some a ∧ P a) : ∃ as, l.mapM g = some as ∧ ∀ a ∈ as, P a := by
  induction l with
  | nil => exact ⟨[], rfl, List.forall_mem_nil P⟩
  | cons e l ih =>
    obtain ⟨⟨a, ha, hP⟩, hl⟩ := List.forall_mem_cons.1 h
    obtain ⟨as, has, hall⟩ := ih hl
    refine ⟨a :: as, ?_, List.forall_mem_cons.2 ⟨hP, hall⟩⟩
    rw [Json.mapM_cons_eq, ha, has]
    rfl

/-- The document of members of which one has the blocks, if it has any, and none behind it. -/
theorem map_documentOfMembers_eq {g : Member → Option (Text × Option (List Block))}
    {earlier later : List Member} {m : Member} {o : Option (List Block)}
    (hearlier : ∀ e ∈ earlier, ∃ a, g e = some a)
    (hm : g m = o.map fun bs => ("blocks".toList, some bs))
    (hlater : ∀ e ∈ later, ∃ a, g e = some a ∧ a.2 = none) :
    ((earlier ++ m :: later).mapM g).map documentOfMembers = o.map .mk := by
  obtain ⟨before, hbefore, -⟩ := exists_mapM_eq_some (P := fun _ => True)
    fun e he => (hearlier e he).imp fun _ ha => ⟨ha, trivial⟩
  obtain ⟨behind, hbehind, hnone⟩ := exists_mapM_eq_some hlater
  have hmembers : (earlier ++ m :: later).mapM g
      = o.map fun bs => before ++ ("blocks".toList, some bs) :: behind := by
    rw [List.mapM_append, hbefore, Json.mapM_cons_eq, hm, hbehind]
    cases o <;> rfl
  rw [hmembers, Option.map_map]
  exact congrArg (o.map ·) (funext fun bs => documentOfMembers_eq hnone)

theorem readsAs_objectSource {members : List Member}
    {g : Member → Option (Text × Option (List Block))}
    (hkeys : ∀ m ∈ members, m.HasKey Json.IsName)
    (hmembers : ∀ m ∈ members, Json.ReadsMember (rootReader fuel) m (g m))
    (hfuel : members.length < fuel) :
    ReadsAs (readDocument fuel) (Json.objectSource [] members)
      ((members.mapM g).map documentOfMembers) := by
  intro c tail _ hc
  obtain ⟨hopener, hrest⟩ := Json.rest_enclosed rfl hc
  obtain ⟨c', hc', hread⟩ :=
    Json.readMembers_first (List.forall_mem_nil _) hkeys hmembers hfuel (.of_rest hrest)
  refine ⟨c', .of_rest hc', ?_⟩
  unfold readDocument
  simp only [hopener]
  rw [Json.toOption_map, hread, Option.map_map, Option.map_map]
  rfl

end Members

/-- That a text decodes as an array of blocks, nested as deeply as may be inside of an object. -/
def DecodesAsBlocks (t : Text) : Prop :=
  ∃ bs c, readDecodedArray block (Json.fuelFor t) (Json.nestingLimit - 1) ⟨t, {}⟩ = .ok (bs, c)

end Decode

open Json (IsArray IsElement IsName IsSpacing Member ReadsMember Spells)

/-- That members may stand before and behind the `blocks` that count, their keys being of a certain
kind: other `blocks` stand only before them and decode as arrays of blocks too. -/
structure Surrounds (IsKey : Text → Prop) (earlier later : List Member) : Prop where
  keys : ∀ e ∈ earlier ++ later, e.HasKey IsKey
  values : ∀ e ∈ earlier ++ later, ∃ n, IsElement n e.value
  earlier : ∀ e ∈ earlier, Spells e.key "blocks".toList → Decode.DecodesAsBlocks e.value
  later : ∀ e ∈ later, ¬Spells e.key "blocks".toList

/-- That a text is an object whose last `blocks` are a certain array. -/
inductive Wraps (IsKey : Text → Prop) (array : Text) : Text → Prop
  | mk {lead trail : Text} {earlier later : List Member} {m : Member} (hlead : IsSpacing lead)
      (htrail : IsSpacing trail) (hkey : m.HasKey (Spells · "blocks".toList))
      (hvalue : m.value = array) (hothers : Surrounds IsKey earlier later) :
      Wraps IsKey array (lead ++ (Json.objectSource [] (earlier ++ m :: later) ++ trail))

namespace Surrounds

variable {earlier later : List Member} (h : Surrounds IsName earlier later) {e m : Member}
  {fuel : Nat} {o : Option (List Block)}
include h

theorem exists_readsMember (he : e ∈ earlier ++ later) (hname : ¬Spells e.key "blocks".toList) :
    ∃ a, ReadsMember (Decode.rootReader fuel) e (some a) ∧ a.2 = none := by
  obtain ⟨hbefore, ⟨name, hspells⟩, hbehind⟩ := h.keys e he
  obtain ⟨n, hvalue⟩ := h.values e he
  refine ⟨(name, none), Decode.readsMember_of_other ⟨hbefore, hspells, hbehind⟩ ?_
    hvalue.passesOver, rfl⟩
  rintro rfl
  exact hname hspells

/-- Earlier `blocks` are read, although they do not count. -/
theorem exists_readsMember_earlier (he : e ∈ earlier) (hfuel : e.value.length < fuel) :
    ∃ a, ReadsMember (Decode.rootReader fuel) e (some a) := by
  have hmem := List.mem_append_left later he
  by_cases hname : Spells e.key "blocks".toList
  · obtain ⟨hbefore, -, hbehind⟩ := h.keys e hmem
    obtain ⟨n, hvalue⟩ := h.values e hmem
    obtain ⟨o, ho⟩ :=
      Decode.exists_readsAs_readDecodedArray Decode.block hvalue (Json.nestingLimit - 1)
    have hread := Decode.readsMember_of_blocks ⟨hbefore, hname, hbehind⟩ (ho fuel hfuel)
    obtain ⟨bs, c, hbs⟩ := h.earlier e he hname
    obtain ⟨c', -, halone⟩ := ho (Json.fuelFor e.value) (Nat.lt_succ_self _) ⟨e.value, {}⟩ []
      (fun _ hd => nomatch hd) (.of_rest (List.append_nil _).symm)
    rw [hbs] at halone
    rcases o with _ | bs'
    · cases halone
    · exact ⟨_, hread⟩
  · obtain ⟨a, ha, -⟩ := h.exists_readsMember hmem hname
    exact ⟨a, ha⟩

theorem hasKey (hm : m.HasKey (Spells · "blocks".toList)) :
    ∀ e ∈ earlier ++ m :: later, e.HasKey IsName := by
  intro e he
  obtain he | rfl | he := by simpa using he
  · exact h.keys e (List.mem_append_left later he)
  · exact ⟨hm.before, ⟨_, hm.key⟩, hm.behind⟩
  · exact h.keys e (List.mem_append_right earlier he)

/-- What the members of a root object make does not depend on those around the `blocks` that
count. -/
theorem readsAs_document (hkey : m.HasKey (Spells · "blocks".toList))
    (hm : ReadsMember (Decode.rootReader fuel) m (o.map fun bs => ("blocks".toList, some bs)))
    (hfuel : (Json.objectSource [] (earlier ++ m :: later)).length < fuel) :
    Json.ReadsAs (Decode.readDocument fuel) (Json.objectSource [] (earlier ++ m :: later))
      (o.map .mk) := by
  obtain ⟨hcount, hlength⟩ := Json.length_lt_enclosed hfuel
  rw [List.length_map] at hcount
  have hearlier : ∀ e ∈ earlier, ∃ a, ReadsMember (Decode.rootReader fuel) e (some a) :=
    fun e he => h.exists_readsMember_earlier he (e.length_value.trans
      (hlength e.source (List.mem_map_of_mem (List.mem_append_left _ he))))
  have hlater : ∀ e ∈ later, ∃ a, ReadsMember (Decode.rootReader fuel) e (some a) ∧ a.2 = none :=
    fun e he => h.exists_readsMember (List.mem_append_right earlier he) (h.later e he)
  have hall : ∀ e ∈ earlier ++ m :: later, ∃ a, ReadsMember (Decode.rootReader fuel) e a := by
    intro e he
    obtain he | rfl | he := by simpa using he
    · obtain ⟨a, ha⟩ := hearlier e he
      exact ⟨_, ha⟩
    · exact ⟨_, hm⟩
    · obtain ⟨a, ha, -⟩ := hlater e he
      exact ⟨_, ha⟩
  choose! g hg using hall
  have hdocument := Decode.readsAs_objectSource (h.hasKey hkey) hg hcount
  rwa [Decode.map_documentOfMembers_eq (fun e he => ?_) ((hg m (by simp)).unique hm)
    fun e he => ?_] at hdocument
  · obtain ⟨a, ha⟩ := hearlier e he
    exact ⟨a, (hg e (by simp [he])).unique ha⟩
  · obtain ⟨a, ha, hnone⟩ := hlater e he
    exact ⟨a, (hg e (by simp [he])).unique ha, hnone⟩

end Surrounds

theorem toOption_readSource_of_wraps {array source : Text} (harray : IsArray 126 array)
    (hwraps : Wraps IsName array source) :
    (readSource source).toOption = (readSource array).toOption := by
  obtain @⟨lead, trail, earlier, later, m, hlead, htrail, hkey, rfl, hothers⟩ := hwraps
  obtain ⟨o, hsteady, ho⟩ := Decode.exists_readsAs_array harray
  have hbare : (readSource m.value).toOption = (o 126).map .mk :=
    (ho _ (Nat.lt_succ_self _)).2.toOption_readAll
  let fuel := Json.fuelFor (lead ++ (Json.objectSource [] (earlier ++ m :: later) ++ trail))
  have hfuel : (Json.objectSource [] (earlier ++ m :: later)).length < fuel := by
    simp only [fuel, Json.fuelFor, List.length_append]
    omega
  have hvalue : m.value.length < fuel := m.length_value.trans
    ((Json.length_lt_enclosed hfuel).2 m.source (List.mem_map_of_mem (by simp)))
  have hm := Decode.readsMember_of_blocks hkey ((ho fuel hvalue).1 125)
  have hwrapped := ((hothers.readsAs_document hkey hm hfuel).spaced hlead htrail).toOption_readAll
  rw [hbare, hsteady 126 (by decide)]
  exact hwrapped

/-- Whether an array of blocks is the root itself or is in a root object, it is read as the same
document, or refused. -/
theorem parseSource_of_wraps {array source : Text} (harray : IsArray 126 array)
    (hwraps : Wraps IsName array source) (tree : FileTree) (document : Document) :
    (parseSource tree .keep source).result = .ok document ↔
      (parseSource tree .keep array).result = .ok document := by
  have hkeep : ∀ t, (parseSource tree .keep t).result = .ok document ↔
      (readSource t).toOption = some document := by
    intro t
    unfold parseSource
    rcases readSource t with e | d
    · exact ⟨nofun, nofun⟩
    · rw [Json.toOption_eq_some]
      exact ⟨fun h => by cases h; rfl, fun h => by cases h; rfl⟩
  rw [hkeep, hkeep, toOption_readSource_of_wraps harray hwraps]

/-- An array of one block. -/
def noteArray : Text :=
  [] ++ (Json.arraySource []
    [Json.objectSource [] [⟨[], "type".toList, [], "\"doc\"".toList⟩]] ++ [])

/-- That array in an object, with other blocks before it and members whose values no reader would
keep. -/
def noteObject : Text :=
  [' '] ++ (Json.objectSource [] ([⟨[], "blocks".toList, [], "[]".toList⟩,
      ⟨['\n'], "large".toList, [' '], "1e999".toList⟩] ++
    ⟨['\n'], "blocks".toList, [], noteArray⟩ ::
      [⟨[], "half".toList, [], "\"\\ud800\"".toList⟩]) ++ ['\n'])

theorem isArray_noteArray : IsArray 126 noteArray := by
  have hblock : ∀ m ∈ [(⟨[], "type".toList, [], "\"doc\"".toList⟩ : Member)],
      m.HasKey Json.IsCharacters ∧ IsElement 124 m.value := by
    refine List.forall_mem_singleton.2 ⟨⟨by decide, ?_, by decide⟩, ?_⟩
    · exact (show Json.IsPlain "type".toList by decide).spells.isCharacters
    · exact .scalar (.text (show Json.IsPlain "doc".toList by decide).spells.isCharacters)
  refine .mk (by decide) (by decide) ?_ (by decide)
  exact List.forall_mem_singleton.2
    (.object (by decide) (fun m hm => (hblock m hm).1) fun m hm => (hblock m hm).2)

theorem readSource_noteArray : (readSource noteArray).toOption = some ⟨[.doc {}]⟩ := by
  have hreads : Reads noteArray (.array [.object [("type".toList, .text "doc".toList)]]) := by
    delta Reads Json.readValue noteArray
    repeat rw [String.toList_ofList]
    rfl
  rw [readSource_toOption hreads]
  rfl

theorem hasKey_of_isPlain {m : Member} (hbefore : IsSpacing m.before) (hkey : Json.IsPlain m.key)
    (hbehind : IsSpacing m.behind) : m.HasKey IsName :=
  ⟨hbefore, ⟨_, hkey.spells⟩, hbehind⟩

theorem wraps_noteObject : Wraps IsName noteArray noteObject := by
  have hblocks : Json.IsPlain "blocks".toList := by decide
  have hlarge : Json.IsPlain "large".toList := by decide
  have hhalf : Json.IsPlain "half".toList := by decide
  refine .mk (by decide) (by decide) ⟨by decide, hblocks.spells, by decide⟩ rfl ⟨?_, ?_, ?_, ?_⟩
  · simp only [List.cons_append, List.nil_append, List.forall_mem_cons]
    exact ⟨hasKey_of_isPlain (by decide) hblocks (by decide),
      hasKey_of_isPlain (by decide) hlarge (by decide),
      hasKey_of_isPlain (by decide) hhalf (by decide), List.forall_mem_nil _⟩
  · simp only [List.cons_append, List.nil_append, List.forall_mem_cons]
    refine ⟨⟨1, ?_⟩, ⟨0, .scalar ?_⟩, ⟨0, .scalar ?_⟩, List.forall_mem_nil _⟩
    · exact IsElement.array (List.forall_mem_nil _) (List.forall_mem_nil _)
    · have hexponent : Json.IsExponent "e999".toList :=
        .some (.inl rfl) (.inl rfl) (by decide)
      have hnumber : Json.IsUnsigned (['1'] ++ "e999".toList) :=
        .mk (by decide) nofun (.exponent hexponent)
      exact .positive hnumber
    · have hvalue : Text.valueOf? 16 0 "d800".toList = some 0xD800 := by decide
      have hunit : Json.IsCharacters ('\\' :: 'u' :: ("d800".toList ++ [])) :=
        .unit rfl (Json.isSome_hexValue? hvalue) .nil
      exact .text hunit
  · simp only [List.forall_mem_cons]
    refine ⟨fun _ => ⟨[], _, rfl⟩, fun hname => ?_, List.forall_mem_nil _⟩
    exact absurd (hname.unique hlarge.spells) (by decide)
  · simp only [List.forall_mem_cons]
    exact ⟨fun hname => absurd (hname.unique hhalf.spells) (by decide), List.forall_mem_nil _⟩

theorem parseSource_noteObject :
    IsArray 126 noteArray ∧ Wraps IsName noteArray noteObject
      ∧ (parseSource (.within []) .keep noteObject).result = .ok ⟨[.doc {}]⟩ := by
  refine ⟨isArray_noteArray, wraps_noteObject,
    (parseSource_of_wraps isArray_noteArray wraps_noteObject (.within []) ⟨[.doc {}]⟩).2 ?_⟩
  unfold parseSource
  rw [Json.toOption_eq_some.1 readSource_noteArray]
  rfl

/-- An object with a key that is no text. -/
def halfKeyObject : Text :=
  [] ++ (Json.objectSource [] ([⟨[], "\\ud800".toList, [], "0".toList⟩] ++
    ⟨[], "blocks".toList, [], "[]".toList⟩ :: []) ++ [])

theorem wraps_halfKeyObject : Wraps Json.IsCharacters "[]".toList halfKeyObject := by
  have hblocks : Json.IsPlain "blocks".toList := by decide
  have hvalue : Text.valueOf? 16 0 "d800".toList = some 0xD800 := by decide
  have hunit : Json.IsCharacters ('\\' :: 'u' :: ("d800".toList ++ [])) :=
    .unit rfl (Json.isSome_hexValue? hvalue) .nil
  have hzero : Json.IsUnsigned (['0'] ++ []) :=
    .mk (by decide) (fun _ => rfl) (.exponent .none)
  refine .mk (by decide) (by decide) ⟨by decide, hblocks.spells, by decide⟩ rfl ⟨?_, ?_, ?_, ?_⟩
  · exact List.forall_mem_singleton.2 ⟨by decide, hunit, by decide⟩
  · exact List.forall_mem_singleton.2 ⟨0, .scalar (.positive hzero)⟩
  · refine List.forall_mem_singleton.2 fun hname => ?_
    -- the key is refused, so it spells nothing
    obtain ⟨c, -, -, hread⟩ := hname.scansString (ε := Unit) ⟨"\\ud800\"".toList, {}⟩ [] rfl
    cases hread
  · exact List.forall_mem_nil _

/-- With a key that is no text, the object is refused although the array is read. -/
theorem not_parse_wrapped_halfKey :
    ¬∀ (array source : Text), IsArray 126 array → Wraps Json.IsCharacters array source →
      ∀ (tree : FileTree) (document : Document),
        (parseSource tree .keep source).result = .ok document ↔
          (parseSource tree .keep array).result = .ok document := by
  intro h
  have harray : IsArray 126 ([] ++ (Json.arraySource [] [] ++ [])) :=
    .mk (by decide) (by decide) (List.forall_mem_nil _) (by decide)
  have hbare : (parseSource (.within []) .keep "[]".toList).result = .ok ⟨[]⟩ := by
    rw [String.toList_ofList]
    rfl
  have hwrapped := (h _ _ harray wraps_halfKeyObject (.within []) ⟨[]⟩).2 hbare
  have hrefused : (parseSource (.within []) .keep halfKeyObject).result.toOption = none := by
    delta halfKeyObject
    repeat rw [String.toList_ofList]
    rfl
  rw [hwrapped] at hrefused
  cases hrefused

end BlockDocument
