import Mathlib.Tactic.SplitIfs
import BlockDocument.Include

/-!
# What a document is refused for

A text that is not a document is faulty JSON, or a value in it is refused. The readers of JSON
refuse nothing on their own: what they refuse is what they were told to, so it is enough to look at
the decoders of the values. Those name only kinds of blocks that are known and fields that are
looked for, and nothing else of what they refuse but the value itself (`refusesFor_readSource`).
-/

namespace BlockDocument

namespace Json

variable {ε α β : Type}

/-- That a stop which is a refusal has a cause that satisfies `P`. -/
def Stop.RefusesFor (P : ε → Prop) : Stop ε → Prop
  | .fault _ _ => True
  | .refused cause _ | .pending cause _ => P cause

/-- That whatever a reader refuses it refuses for a cause that satisfies `P`. -/
def RefusesFor (P : ε → Prop) (outcome : Except (Stop ε) α) : Prop :=
  ∀ stop, outcome = .error stop → stop.RefusesFor P

variable {P : ε → Prop}

theorem refusesFor_error {stop : Stop ε} :
    RefusesFor P (.error stop : Except (Stop ε) α) ↔ stop.RefusesFor P := by
  constructor
  · exact fun h => h stop rfl
  · intro h _ hs
    cases hs
    exact h

theorem RefusesFor.error {outcome : Except (Stop ε) α} {stop : Stop ε} (h : RefusesFor P outcome)
    (hs : outcome = .error stop) : RefusesFor P (.error stop : Except (Stop ε) β) :=
  refusesFor_error.2 (h stop hs)

@[simp]
theorem refusesFor_ok (a : α) : RefusesFor P (.ok a : Except (Stop ε) α) :=
  fun _ hs => by cases hs

@[simp]
theorem refusesFor_fault (cause : Fault) (place : Position) :
    RefusesFor P (.error (.fault cause place) : Except (Stop ε) α) :=
  refusesFor_error.2 trivial

@[simp]
theorem refusesFor_stopAt (c : Cursor) (f : Fault) : RefusesFor P (stopAt c f : Outcome ε α) :=
  refusesFor_fault f _

@[simp]
theorem refusesFor_stopPast (c : Cursor) (f : Fault) : RefusesFor P (stopPast c f : Outcome ε α) :=
  refusesFor_fault f _

theorem RefusesFor.map {outcome : Outcome ε α} (h : RefusesFor P outcome) (f : α → β) :
    RefusesFor P (Outcome.map f outcome) := by
  rcases outcome with stop | ⟨a, c⟩
  · exact h.error rfl
  · exact refusesFor_ok _

theorem refusesFor_settle (place : Cursor → Position) {stop : Stop ε} (h : stop.RefusesFor P) :
    (stop.settle place).RefusesFor P := by
  cases stop with
  | fault | refused | pending => exact h

/-! ## Literals -/

theorem refusesFor_readWord : ∀ (word : Text) (c : Cursor),
    RefusesFor P (readWord word c : Outcome ε Unit)
  | [], c => refusesFor_ok _
  | w :: word, c => by
    unfold readWord
    split
    · exact refusesFor_stopAt _ _
    · split
      · exact refusesFor_readWord word _
      · exact refusesFor_stopPast _ _

theorem refusesFor_readStringFrom : ∀ (state : StringState) (p : Position) (t : Text),
    RefusesFor P (readStringFrom state p t : Outcome ε Text)
  | _, _, [] => by
    unfold readStringFrom
    exact refusesFor_fault _ _
  | state, p, c :: rest => by
    unfold readStringFrom
    split
    · exact refusesFor_ok _
    · exact refusesFor_readStringFrom _ _ rest
    · split
      · exact refusesFor_ok _
      · rename_i hs
        exact (refusesFor_readStringFrom .text (p.over c) rest).error hs
    · exact refusesFor_fault _ _

theorem refusesFor_readString (c : Cursor) : RefusesFor P (readString c : Outcome ε Text) :=
  refusesFor_readStringFrom _ _ _

theorem refusesFor_realOf (negative : Bool) (parts : RealParts) (c : Cursor) :
    RefusesFor P (realOf negative parts c : Outcome ε Json) := by
  unfold realOf
  split <;> simp

theorem refusesFor_readExponent (negative : Bool) (parts : RealParts) (c : Cursor) :
    RefusesFor P (readExponent negative parts c : Outcome ε Json) := by
  unfold readExponent
  simp only
  split_ifs <;> simp [refusesFor_realOf]

theorem refusesFor_readRealEnd (negative : Bool) (parts : RealParts) (c : Cursor) :
    RefusesFor P (readRealEnd negative parts c : Outcome ε Json) := by
  unfold readRealEnd
  split
  · exact refusesFor_readExponent _ _ _
  · exact refusesFor_readExponent _ _ _
  · exact refusesFor_realOf _ _ _

theorem refusesFor_readFraction (negative : Bool) (parts : RealParts) (c : Cursor) :
    RefusesFor P (readFraction negative parts c : Outcome ε Json) := by
  unfold readFraction
  simp only
  split_ifs <;> simp [refusesFor_readRealEnd]

theorem refusesFor_readNumber (negative : Bool) (c : Cursor) :
    RefusesFor P (readNumber negative c : Outcome ε Json) := by
  unfold readNumber
  simp only
  split
  · exact refusesFor_stopAt _ _
  split
  · exact refusesFor_stopPast _ _
  split
  · exact refusesFor_stopPast _ _
  split
  · exact refusesFor_readFraction _ _ _
  · exact refusesFor_readExponent _ _ _
  · exact refusesFor_readExponent _ _ _
  · split_ifs <;> simp [refusesFor_realOf]

theorem refusesFor_readScalar (c : Cursor) : RefusesFor P (readScalar c : Outcome ε Json) := by
  unfold readScalar
  split
  · exact refusesFor_stopPast _ _
  · exact (refusesFor_readWord _ _).map _
  · exact (refusesFor_readWord _ _).map _
  · exact (refusesFor_readWord _ _).map _
  · exact (refusesFor_readString _).map _
  · exact refusesFor_readNumber _ _
  · split_ifs
    · exact refusesFor_readNumber _ _
    · exact refusesFor_stopPast _ _

/-! ## Arrays and objects -/

theorem RefusesFor.item {first : Outcome ε α} {others : Cursor → Outcome ε (List α)} :
    RefusesFor P first → (∀ c, RefusesFor P (others c)) → RefusesFor P
      (match first with
      | .error e => .error (e.settle arrayEndPlace)
      | .ok (a, c) =>
        match others c with
        | .error e => .error e
        | .ok (as, c) => .ok (a :: as, c) : Outcome ε (List α)) := by
  intro hf ho
  split
  · exact refusesFor_error.2 (refusesFor_settle _ (hf _ rfl))
  · split
    · exact (ho _).error ‹_›
    · exact refusesFor_ok _

theorem refusesFor_readItems {read : Nat → Cursor → Outcome ε α}
    (h : ∀ index c, RefusesFor P (read index c)) : ∀ (fuel index : Nat) (c : Cursor),
      RefusesFor P (readItems read fuel index c)
  | 0, _, c => refusesFor_stopAt _ _
  | fuel + 1, index, c => by
    have item := fun c => RefusesFor.item (h index c) (refusesFor_readItems h fuel (index + 1))
    unfold readItems
    simp only
    split
    · exact refusesFor_stopPast _ _
    · exact refusesFor_ok _
    · split_ifs
      · exact item _
      · split
        · exact refusesFor_stopPast _ _
        · exact refusesFor_stopPast _ _
        · exact item _
      · exact refusesFor_stopPast _ _

theorem RefusesFor.member {next : Text → Cursor → Outcome ε α}
    {others : Text → Cursor → Outcome ε (List (Text × α))} (c : Cursor) :
    (∀ key c, RefusesFor P (next key c)) → (∀ key c, RefusesFor P (others key c)) → RefusesFor P
      (match readString c with
      | .error e => .error e
      | .ok (key, c) =>
        match next key c with
        | .error e => .error (e.settle objectEndPlace)
        | .ok (a, c) =>
          match others key c with
          | .error e => .error e
          | .ok (as, c) => .ok ((key, a) :: as, c) : Outcome ε (List (Text × α))) := by
  intro hn ho
  split
  · exact (refusesFor_readString c).error ‹_›
  · split
    · exact refusesFor_error.2 (refusesFor_settle _ (hn _ _ _ ‹_›))
    · split
      · exact (ho _ _).error ‹_›
      · exact refusesFor_ok _

theorem refusesFor_readMembers {read : List Text → Text → Cursor → Outcome ε α}
    (h : ∀ seen key c, RefusesFor P (read seen key c)) :
      ∀ (fuel : Nat) (seen : List Text) (c : Cursor), RefusesFor P (readMembers read fuel seen c)
  | 0, _, c => refusesFor_stopAt _ _
  | fuel + 1, seen, c => by
    have member := fun c => RefusesFor.member c (h seen)
      fun key => refusesFor_readMembers h fuel (key :: seen)
    unfold readMembers
    simp only
    split
    · exact refusesFor_stopPast _ _
    · exact refusesFor_ok _
    · split_ifs
      · exact member _
      · exact refusesFor_stopPast _ _
      · split
        · exact refusesFor_stopPast _ _
        · exact member _
        · exact refusesFor_stopPast _ _
        · exact refusesFor_stopPast _ _
      · exact refusesFor_stopPast _ _

theorem refusesFor_readColon (c : Cursor) :
    RefusesFor P (readColon c : Except (Stop ε) Cursor) := by
  unfold readColon
  simp only
  split <;> simp

theorem refusesFor_readAfterColon {read : Cursor → Outcome ε α} (h : ∀ c, RefusesFor P (read c))
    (c : Cursor) : RefusesFor P (readAfterColon read c) := by
  unfold readAfterColon
  split
  · rename_i hs
    exact (refusesFor_readColon c).error hs
  · exact h _

theorem refusesFor_readValue (fuel : Nat) : ∀ (depth : Nat) (c : Cursor),
    RefusesFor P (readValue fuel depth c : Outcome ε Json) := by
  intro depth
  induction depth with
  | zero =>
    intro c
    unfold readValue
    simp only
    split
    · exact refusesFor_stopPast _ _
    · exact refusesFor_stopPast _ _
    · simp_all
    · simp_all
    · exact refusesFor_readScalar _
  | succ depth ih =>
    intro c
    unfold readValue
    simp only
    split
    · simp_all
    · simp_all
    · rename_i hd
      cases hd
      exact (refusesFor_readItems (fun _ => ih) _ _ _).map _
    · rename_i hd
      cases hd
      exact (refusesFor_readMembers (fun _ _ => refusesFor_readAfterColon ih) _ _ _).map _
    · exact refusesFor_readScalar _

theorem refusesFor_refuse {mismatch : Found → ε} (h : ∀ found, P (mismatch found)) (c : Cursor) :
    RefusesFor P (refuse mismatch c : Outcome ε α) := by
  unfold refuse
  split
  · exact refusesFor_error.2 (h _)
  · exact refusesFor_error.2 (h _)
  · split
    · rename_i hs
      exact (refusesFor_readScalar _).error hs
    · exact refusesFor_error.2 (h _)

theorem refusesFor_readArray {mismatch : Found → ε} (hm : ∀ found, P (mismatch found))
    {read : (depth : Nat) → (index : Nat) → Cursor → Outcome ε α}
    (h : ∀ depth index c, RefusesFor P (read depth index c)) (fuel depth : Nat) (c : Cursor) :
    RefusesFor P (readArray mismatch read fuel depth c) := by
  unfold readArray
  simp only
  split
  · exact refusesFor_stopPast _ _
  · exact refusesFor_readItems (h _) _ _ _
  · exact refusesFor_refuse hm _

/-! ## Values that are passed over -/

theorem refusesFor_skipExponent (c : Cursor) : RefusesFor P (skipExponent c : Outcome ε Unit) := by
  unfold skipExponent
  simp only
  split_ifs <;> simp

theorem refusesFor_skipRealEnd (c : Cursor) : RefusesFor P (skipRealEnd c : Outcome ε Unit) := by
  unfold skipRealEnd
  split
  · exact refusesFor_skipExponent _
  · exact refusesFor_skipExponent _
  · exact refusesFor_ok _

theorem refusesFor_skipNumber (c : Cursor) : RefusesFor P (skipNumber c : Outcome ε Unit) := by
  unfold skipNumber
  simp only
  split
  · exact refusesFor_stopPast _ _
  split
  · exact refusesFor_stopPast _ _
  split
  · split_ifs <;> simp [refusesFor_skipRealEnd]
  · exact refusesFor_skipRealEnd _

theorem refusesFor_skipStringFrom : ∀ (state : SkipState) (p : Position) (t : Text),
    RefusesFor P (skipStringFrom state p t : Outcome ε Unit)
  | _, _, [] => by
    unfold skipStringFrom
    exact refusesFor_fault _ _
  | .text, p, c :: rest => by
    unfold skipStringFrom
    split_ifs <;> simp [refusesFor_skipStringFrom _ _ rest]
  | .escape, p, c :: rest => by
    unfold skipStringFrom
    split_ifs <;> simp [refusesFor_skipStringFrom _ _ rest]
  | .hex size valid, p, c :: rest => by
    unfold skipStringFrom
    simp only
    split_ifs <;> simp [refusesFor_skipStringFrom _ _ rest]

theorem refusesFor_skipString (c : Cursor) : RefusesFor P (skipString c : Outcome ε Unit) :=
  refusesFor_skipStringFrom _ _ _

theorem refusesFor_skipScalar (c : Cursor) : RefusesFor P (skipScalar c : Outcome ε Unit) := by
  unfold skipScalar
  split
  · exact refusesFor_stopPast _ _
  · exact refusesFor_readWord _ _
  · exact refusesFor_readWord _ _
  · exact refusesFor_readWord _ _
  · exact refusesFor_skipString _
  · exact refusesFor_skipNumber _
  · split_ifs
    · exact refusesFor_skipNumber _
    · exact refusesFor_stopPast _ _

theorem refusesFor_skipKey (frame : Frame) (c : Cursor) :
    RefusesFor P (skipKey frame c : Except (Stop ε) Cursor) := by
  unfold skipKey
  split
  · exact refusesFor_ok _
  · simp only
    split
    · exact refusesFor_fault _ _
    · split
      · rename_i hs
        exact (refusesFor_skipString _).error hs
      · exact refusesFor_readColon _
    · exact refusesFor_fault _ _

theorem refusesFor_skipFrom : ∀ (fuel : Nat) (goal : SkipGoal) (stack : List Frame) (c : Cursor),
    RefusesFor P (skipFrom fuel goal stack c : Outcome ε Unit)
  | 0, _, _, _ => by
    unfold skipFrom
    exact refusesFor_stopAt _ _
  | fuel + 1, .value, stack, c => by
    unfold skipFrom
    simp only
    split
    · exact refusesFor_skipFrom fuel _ _ _
    · exact refusesFor_skipFrom fuel _ _ _
    · split
      · rename_i hs
        exact (refusesFor_skipScalar _).error hs
      · exact refusesFor_skipFrom fuel _ _ _
  | fuel + 1, .first, [], c => by
    unfold skipFrom
    exact refusesFor_ok _
  | fuel + 1, .next, [], c => by
    unfold skipFrom
    exact refusesFor_ok _
  | fuel + 1, .first, frame :: stack, c => by
    unfold skipFrom
    simp only
    split
    · exact refusesFor_stopPast _ _
    split
    · exact refusesFor_skipFrom fuel _ _ _
    · split
      · rename_i hs
        exact (refusesFor_skipKey frame _).error hs
      · exact refusesFor_skipFrom fuel _ _ _
  | fuel + 1, .next, frame :: stack, c => by
    unfold skipFrom
    simp only
    split
    · exact refusesFor_stopPast _ _
    split
    · split
      · rename_i hs
        exact (refusesFor_skipKey frame _).error hs
      · exact refusesFor_skipFrom fuel _ _ _
    split
    · exact refusesFor_skipFrom fuel _ _ _
    · exact refusesFor_stopPast _ _

theorem refusesFor_skipValue (c : Cursor) : RefusesFor P (skipValue c : Outcome ε Unit) :=
  refusesFor_skipFrom _ _ _ _

end Json

/-! ## Decoders -/

namespace Decode

open BlockDocument (Json)

variable {α β σ : Type}

/-- The kinds of blocks that have fields. -/
def blockKinds : List Text :=
  ["meta", "doc", "slide", "sheet", "table", "chart", "diagram", "osfcode", "code"].map
    String.toList

/-- The names of the fields that blocks and their parts have. -/
def knownFields : List Text :=
  metaFields.names ++ proseFields.names ++ slideFields.names ++ sheetFields.names
    ++ rowFields.names ++ tableFields.names ++ chartFields.names ++ diagramFields.names
    ++ listingFields.names ++ ["content", "items", "url", "alt", "type"].map String.toList

/-- That a mismatch names no kind of block and no field but those that are known. -/
def Mismatch.NamesKnown : Mismatch → Prop
  | duplicateField name => name ∈ knownFields
  | invalidBlock kind reason => kind ∈ blockKinds ∧ reason.NamesKnown
  | _ => True

/-- That a value that does not fit is refused by what is known. -/
def NamesKnown (decoded : Decoded α) : Prop := ∀ e, decoded = .error e → e.NamesKnown

@[simp]
theorem namesKnown_ok (a : α) : NamesKnown (.ok a : Decoded α) := fun _ he => by cases he

@[simp]
theorem namesKnown_error {e : Mismatch} :
    NamesKnown (.error e : Decoded α) ↔ e.NamesKnown := by
  constructor
  · exact fun h => h e rfl
  · intro h _ he
    cases he
    exact h

@[simp]
theorem namesKnown_map {decoded : Decoded α} {f : α → β} :
    NamesKnown (decoded.map f) ↔ NamesKnown decoded := by
  rcases decoded with e | a
  · exact namesKnown_error.trans namesKnown_error.symm
  · exact iff_of_true (namesKnown_ok _) (namesKnown_ok _)

@[simp]
theorem namesKnown_mismatch (value : Json) (expected : Expected) :
    NamesKnown (mismatch value expected : Decoded α) :=
  namesKnown_error.2 trivial

@[simp]
theorem namesKnown_text (value : Json) : NamesKnown (text value) := by
  unfold text
  split <;> simp

@[simp]
theorem namesKnown_optionalText (value : Json) : NamesKnown (optionalText value) := by
  unfold optionalText
  split <;> simp

@[simp]
theorem namesKnown_dictionary (f : Json → α) (value : Json) : NamesKnown (dictionary f value) := by
  unfold dictionary
  split <;> simp

theorem namesKnown_each {decode : Json → Decoded α} (h : ∀ value, NamesKnown (decode value)) :
    ∀ values : List Json, NamesKnown (each decode values)
  | [] => namesKnown_ok _
  | value :: values => by
    unfold each
    split
    · rename_i e he
      exact namesKnown_error.2 (h value e he)
    · split
      · rename_i e he
        exact namesKnown_error.2 (namesKnown_each h values e he)
      · exact namesKnown_ok _

theorem namesKnown_list {decode : Json → Decoded α} (h : ∀ value, NamesKnown (decode value))
    (value : Json) : NamesKnown (list decode value) := by
  unfold list
  split
  · exact namesKnown_each h _
  · exact namesKnown_mismatch _ _

/-! ### Fields -/

/-- Fields whose names are known and whose values are refused by what is known. -/
structure KnownFields (f : Fields σ) : Prop where
  names : ∀ name ∈ f.names, name ∈ knownFields
  assign : ∀ name value s, NamesKnown (f.assign name value s)

theorem KnownFields.ofMembers {f : Fields σ} (h : KnownFields f) :
    ∀ (seen : List Text) (s : σ) (members : List (Text × Json)),
      NamesKnown (f.ofMembers seen s members)
  | _, _, [] => namesKnown_ok _
  | seen, s, (key, value) :: members => by
    unfold Fields.ofMembers
    split
    · exact h.ofMembers seen s members
    · rename_i name hn
      have hname : name ∈ f.names := by
        unfold Fields.field? at hn
        split at hn
        · rename_i hc
          cases hn
          exact List.contains_iff_mem.1 hc
        · cases hn
      split
      · exact namesKnown_error.2 (h.names name hname)
      · split
        · rename_i e he
          exact namesKnown_error.2 (h.assign name value s e he)
        · exact h.ofMembers _ _ members

theorem KnownFields.ofItems {f : Fields σ} (h : KnownFields f) :
    ∀ (names : List Text) (s : σ) (items : List Json), NamesKnown (f.ofItems names s items)
  | [], _, _ => namesKnown_ok _
  | _ :: _, _, [] => namesKnown_ok _
  | name :: names, s, value :: items => by
    unfold Fields.ofItems
    split
    · rename_i e he
      exact namesKnown_error.2 (h.assign name value s e he)
    · exact h.ofItems names _ items

/-! ### Slide content -/

@[simp]
theorem namesKnown_run (value : Json) : NamesKnown (run value) := by
  unfold run
  split
  · exact namesKnown_ok _
  · split
    · exact namesKnown_ok _
    · exact namesKnown_error.2 trivial

@[simp]
theorem namesKnown_runSequence (value : Json) : NamesKnown (runSequence value) := by
  unfold runSequence
  split
  · exact namesKnown_ok _
  · split
    · exact namesKnown_ok _
    · exact namesKnown_error.2 trivial

theorem knownFields_content (kind : ContentKind) : KnownFields kind.fields where
  names := by cases kind <;> decide
  assign name value content := by
    have hruns : NamesKnown (runs value) := namesKnown_list namesKnown_run value
    have hitems : NamesKnown (list runSequence value) :=
      namesKnown_list namesKnown_runSequence value
    show NamesKnown (ContentKind.assignField name value content)
    cases content with
    | paragraph => exact namesKnown_map.2 hruns
    | unorderedList | orderedList | quotation => exact namesKnown_map.2 hitems
    | code | image => exact namesKnown_map.2 (namesKnown_text value)
    | unsupported => exact namesKnown_ok _

theorem namesKnown_contentOfMembers (tag : Text) (members : List (Text × Json)) :
    NamesKnown (contentOfMembers tag members) := by
  unfold contentOfMembers
  split
  · exact namesKnown_ok _
  · exact (knownFields_content _).ofMembers _ _ _

theorem namesKnown_contentOfItems (tag : Text) (items : List Json) :
    NamesKnown (contentOfItems tag items) := by
  unfold contentOfItems
  split
  · split
    · exact namesKnown_ok _
    · exact namesKnown_error.2 trivial
  · rename_i kind _
    split
    · rename_i e he
      exact namesKnown_error.2 ((knownFields_content kind).ofItems _ _ _ e he)
    · exact namesKnown_ok _
    · exact namesKnown_error.2 trivial

theorem namesKnown_contentTag (value : Json) : NamesKnown (contentTag value) := by
  unfold contentTag
  split <;> simp

theorem namesKnown_tagOfMembers : ∀ (tag : Option Text) (members : List (Text × Json)),
    NamesKnown (tagOfMembers tag members)
  | _, [] => namesKnown_ok _
  | tag, (key, value) :: members => by
    unfold tagOfMembers
    split
    · rename_i hk
      split
      · rw [hk]
        exact namesKnown_error.2 (show "type".toList ∈ knownFields by decide)
      · split
        · rename_i e he
          exact namesKnown_error.2 (namesKnown_contentTag value e he)
        · exact namesKnown_tagOfMembers _ members
    · exact namesKnown_tagOfMembers tag members

theorem namesKnown_slideContent (value : Json) : NamesKnown (slideContent value) := by
  unfold slideContent
  split
  · split
    · rename_i e he
      exact namesKnown_error.2 (namesKnown_tagOfMembers none _ e he)
    · exact namesKnown_error.2 trivial
    · exact namesKnown_contentOfMembers _ _
  · exact namesKnown_error.2 trivial
  · split
    · rename_i e he
      exact namesKnown_error.2 (namesKnown_contentTag _ e he)
    · exact namesKnown_contentOfItems _ _
  · exact namesKnown_mismatch _ _

/-! ### Blocks -/

theorem namesKnown_tableCell (value : Json) : NamesKnown (tableCell value) := by
  unfold tableCell
  split
  · exact namesKnown_ok _
  · split
    · exact namesKnown_ok _
    · exact namesKnown_error.2 trivial

theorem knownFields_row : KnownFields rowFields where
  names := by decide
  assign _ value _ := namesKnown_list namesKnown_tableCell value

theorem namesKnown_tableRow (value : Json) : NamesKnown (tableRow value) := by
  unfold tableRow
  split
  · exact knownFields_row.ofMembers _ _ _
  · split
    · rename_i e he
      exact namesKnown_error.2 (knownFields_row.ofItems _ _ _ e he)
    · exact namesKnown_ok _
    · exact namesKnown_error.2 trivial
  · exact namesKnown_mismatch _ _

theorem knownFields_meta : KnownFields metaFields where
  names := by decide
  assign _ value _ := by simp [metaFields]

theorem knownFields_prose : KnownFields proseFields where
  names := by decide
  assign _ value _ := by simp [proseFields]

theorem knownFields_slide : KnownFields slideFields where
  names := by decide
  assign name value _ := by
    have hc := namesKnown_list namesKnown_slideContent value
    have ht := namesKnown_list namesKnown_text value
    simp only [slideFields]
    split_ifs <;> simp [hc, ht]

theorem knownFields_sheet : KnownFields sheetFields where
  names := by decide
  assign name value _ := by
    have ht := namesKnown_list namesKnown_text value
    simp only [sheetFields]
    split_ifs <;> simp [ht]

theorem knownFields_table : KnownFields tableFields where
  names := by decide
  assign name value _ := by
    have ht := namesKnown_list namesKnown_text value
    have hr := namesKnown_list namesKnown_tableRow value
    simp only [tableFields]
    split_ifs <;> simp [ht, hr]

theorem knownFields_chart : KnownFields chartFields where
  names := by decide
  assign name value _ := by
    have hd : NamesKnown (list (.ok : Json → Decoded Json) value) :=
      namesKnown_list namesKnown_ok value
    simp only [chartFields]
    split_ifs <;> simp [hd]

theorem knownFields_diagram : KnownFields diagramFields where
  names := by decide
  assign name value _ := by
    simp only [diagramFields]
    split_ifs <;> simp

theorem knownFields_listing : KnownFields listingFields where
  names := by decide
  assign name value _ := by
    simp only [listingFields]
    split_ifs <;> simp

/-- Only a block of a kind that has fields can be refused, and then for what it holds. -/
theorem namesKnown_blockOfKind {kind : Text} {rest : Dictionary Json} {e : Mismatch}
    (h : blockOfKind kind rest = .error e) : kind ∈ blockKinds ∧ e.NamesKnown := by
  have hfields : ∀ {σ : Type} {f : Fields σ} {s : σ} {g : σ → Block}, KnownFields f →
      (ofObject f s rest.entries).map g = .error e → e.NamesKnown :=
    fun hf he => namesKnown_map.2 (hf.ofMembers [] _ _) e he
  unfold blockOfKind at h
  simp only at h
  split_ifs at h with h1 h2 h3 h4 h5 h6 h7 h8
  · exact ⟨by rw [h1]; decide, hfields knownFields_meta h⟩
  · exact ⟨by rw [h2]; decide, hfields knownFields_prose h⟩
  · exact ⟨by rw [h3]; decide, hfields knownFields_slide h⟩
  · exact ⟨by rw [h4]; decide, hfields knownFields_sheet h⟩
  · exact ⟨by rw [h5]; decide, hfields knownFields_table h⟩
  · exact ⟨by rw [h6]; decide, hfields knownFields_chart h⟩
  · exact ⟨by rw [h7]; decide, hfields knownFields_diagram h⟩
  · refine ⟨?_, hfields knownFields_listing h⟩
    rcases h8 with h8 | h8 <;> rw [h8] <;> decide

theorem namesKnown_block (value : Json) : NamesKnown (block value) := by
  unfold block
  split
  · unfold blockOfMembers
    split
    · exact namesKnown_error.2 trivial
    · rename_i kind _
      intro e he
      rcases hb : blockOfKind kind _ with reason | b
      · rw [hb] at he
        cases he
        exact namesKnown_blockOfKind hb
      · rw [hb] at he
        cases he
    · exact namesKnown_error.2 trivial
  · exact namesKnown_error.2 trivial

/-! ### Documents -/

theorem refusesFor_readDecoded {decode : Json → Decoded α} (h : ∀ value, NamesKnown (decode value))
    (fuel depth : Nat) (c : Json.Cursor) :
    Json.RefusesFor Mismatch.NamesKnown (readDecoded decode fuel depth c) := by
  unfold readDecoded
  split
  · rename_i hs
    exact (Json.refusesFor_readValue fuel depth c).error hs
  · split
    · rename_i e he
      exact Json.refusesFor_error.2 (h _ e he)
    · exact Json.refusesFor_ok _

theorem refusesFor_readRootMember (fuel depth : Nat) (key : Text) (c : Json.Cursor) :
    Json.RefusesFor Mismatch.NamesKnown (readRootMember fuel depth key c) := by
  unfold readRootMember
  split
  · refine Json.refusesFor_readAfterColon (fun c => Json.RefusesFor.map ?_ _) c
    exact Json.refusesFor_readArray (fun _ => trivial)
      (fun _ _ => refusesFor_readDecoded namesKnown_block fuel _) _ _ _
  · exact Json.refusesFor_readAfterColon (fun c => (Json.refusesFor_skipValue c).map _) c

theorem refusesFor_readDocument (fuel : Nat) (c : Json.Cursor) :
    Json.RefusesFor Mismatch.NamesKnown (readDocument fuel c) := by
  unfold readDocument
  simp only
  split
  · refine Json.RefusesFor.map (Json.refusesFor_readItems (fun _ c => ?_) _ _ _) _
    exact refusesFor_readDecoded namesKnown_block _ _ c
  · refine Json.RefusesFor.map (Json.refusesFor_readMembers (fun _ key c => ?_) _ _ _) _
    exact refusesFor_readRootMember _ _ key c
  · exact Json.refusesFor_refuse (fun _ => trivial) _

end Decode

/-- A text that is not a document is faulty JSON, or it is refused by names that are known. -/
theorem refusesFor_readSource (source : Text) :
    Json.RefusesFor Decode.Mismatch.NamesKnown (readSource source) := by
  unfold readSource Json.readAll
  split
  · rename_i hs
    exact (Decode.refusesFor_readDocument _ _).error hs
  · simp only
    split_ifs
    · exact Json.refusesFor_ok _
    · exact Json.refusesFor_fault _ _

end BlockDocument
