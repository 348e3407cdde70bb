import Mathlib.Logic.Relation
import BlockDocument.Proofs.MemberOrder

/-!
# Members that are not known

A member that is not declared for its object is passed over wherever an object of a known kind
stands in a document. A `Part` is what may stand somewhere in a document; `Extended` follows the
parts that lie within another one down to the object that has one more member, and by induction
on it every part around decodes as before (`decode?_of_extended`).
-/

namespace BlockDocument

namespace Decode

variable {α σ : Type}

/-! ## Fields -/

theorem ofMembers_filter {f : Fields σ} {key : Text} (h : f.field? key = none) :
    ∀ (seen : List Text) (s : σ) (ms : List (Text × Json)),
      f.ofMembers seen s (ms.filter fun m => m.1 ≠ key) = f.ofMembers seen s ms
  | _, _, [] => rfl
  | seen, s, (name, value) :: ms => by
    have ih := fun seen s => ofMembers_filter h seen s ms
    rw [List.filter_cons]
    split_ifs with hname
    · simp only [Fields.ofMembers, ih]
    · have hname : name = key := by simpa using hname
      simp only [Fields.ofMembers, hname, h, ih]

/-- That a field is set alike from two values, where `P` holds of what it is set in. -/
def Fields.SetsAlike (f : Fields σ) (P : σ → Prop) (key : Text) (a b : Json) : Prop :=
  ∀ name, f.field? key = some name → ∀ s, P s →
    (f.assign name a s).toOption = (f.assign name b s).toOption

theorem toOption_ofMembers_congr {f : Fields σ} {P : σ → Prop}
    (hP : ∀ name value s s', P s → f.assign name value s = .ok s' → P s')
    {ms ms' : List (Text × Json)} (h : List.Forall₂ (Dictionary.EntryRel (f.SetsAlike P)) ms ms') :
    ∀ (seen : List Text) (s : σ), P s →
      (f.ofMembers seen s ms).toOption = (f.ofMembers seen s ms').toOption := by
  induction h with
  | nil => exact fun _ _ _ => rfl
  | @cons m m' _ _ hm _ ih =>
    intro seen s hs
    obtain ⟨key, a⟩ := m
    obtain ⟨key', b⟩ := m'
    obtain ⟨rfl, halike⟩ := hm
    unfold Fields.ofMembers
    rcases hname : f.field? key with _ | name
    · exact ih seen s hs
    · simp only
      split_ifs
      · rfl
      · have hset := halike name hname s hs
        rcases ha : f.assign name a s with e | s' <;>
          rcases hb : f.assign name b s with e' | s'' <;> rw [ha, hb] at hset <;> cases hset
        · rfl
        · exact ih _ _ (hP name a s s' hs ha)

theorem field?_eq_none {f : Fields σ} {key : Text} (hmeaning : f.meaning key = key)
    (hkey : key ∉ f.names) : f.field? key = none := by
  rw [Fields.field?, hmeaning, if_neg]
  exact fun h => hkey (List.contains_iff_mem.1 h)

/-! ## Members by key -/

theorem erase_membersByKey (key : Text) (value : Json) (before after : List (Text × Json)) :
    (Json.membersByKey (before ++ (key, value) :: after)).erase key
      = (Json.membersByKey (before ++ after)).erase key := by
  rw [Json.membersByKey, Json.membersByKey, Dictionary.erase_ofList, Dictionary.erase_ofList,
    Json.sortedMembers_eq_map, Json.sortedMembers_eq_map, List.map_append, List.map_append,
    List.map_cons, List.filter_append, List.filter_append,
    List.filter_cons_of_neg (by simp)]

theorem erase_comm (d : Dictionary α) (key key' : Text) :
    (d.erase key).erase key' = (d.erase key').erase key :=
  Dictionary.eq_of_mem fun x => by simp only [Dictionary.mem_erase, and_right_comm]

theorem get?_membersByKey (ms : List (Text × Json)) (key : Text) :
    (Json.membersByKey ms).get? key = ((Dictionary.ofList ms).get? key).map Json.sorted := by
  have hrel : List.Forall₂ (Dictionary.EntryRel fun _ a b => b = a.sorted) ms
      (Json.sortedMembers ms) := by
    rw [Json.sortedMembers_eq_map, List.forall₂_map_right_iff]
    exact List.forall₂_same.2 fun _ _ => ⟨rfl, rfl⟩
  have hentries := Dictionary.forall₂_ofList hrel
  rw [Json.membersByKey, Dictionary.get?, Dictionary.get?]
  generalize (Dictionary.ofList ms).entries = es at hentries ⊢
  generalize (Dictionary.ofList (Json.sortedMembers ms)).entries = fs at hentries ⊢
  induction hentries with
  | nil => rfl
  | @cons m m' _ _ hm _ ih =>
    rw [List.find?_cons, List.find?_cons, ← hm.1]
    by_cases hkey : m.1 = key
    · simp [hkey, hm.2]
    · simpa [hkey] using ih

/-- The kind that an object's `type` names. Of several members of that name the last counts. -/
def kind? (ms : List (Text × Json)) : Option Text :=
  match (Dictionary.ofList ms).get? "type".toList with
  | some (.text kind) => some kind
  | _ => none

theorem get?_type {ms : List (Text × Json)} {kind : Text} (h : kind? ms = some kind) :
    (Json.membersByKey ms).get? "type".toList = some (.text kind) := by
  rw [get?_membersByKey]
  unfold kind? at h
  split at h
  · rename_i hget
    cases h
    rw [hget, Option.map_some, Json.sorted_of_isScalar rfl]
  · cases h

theorem get?_type_of_kind? {before after : List (Text × Json)} {kind key : Text} {value : Json}
    (h : kind? (before ++ after) = some kind) (hkey : key ≠ "type".toList) :
    (Json.membersByKey (before ++ (key, value) :: after)).get? "type".toList
      = some (.text kind) := by
  have hkept : ∀ d : Dictionary Json, (d.erase key).get? "type".toList = d.get? "type".toList :=
    fun d => (d.get?_erase key _).trans (if_neg hkey.symm)
  rw [← hkept, erase_membersByKey, hkept, get?_type h]

/-! ## Objects with a member more, and with another value -/

theorem ofMembers_membersByKey {f : Fields σ} {key : Text} (h : f.field? key = none) (s : σ)
    (value : Json) (before after : List (Text × Json)) :
    f.ofMembers [] s (Json.membersByKey (before ++ (key, value) :: after)).entries
      = f.ofMembers [] s (Json.membersByKey (before ++ after)).entries := by
  rw [← ofMembers_filter h, ← ofMembers_filter h [] s (Json.membersByKey (before ++ after)).entries]
  exact congrArg (fun d => f.ofMembers [] s d.entries) (erase_membersByKey key value before after)

theorem forall₂_membersByKey {R : Text → Json → Json → Prop} (hrefl : ∀ key v, R key v v)
    {key : Text} {v v' : Json} (h : R key v.sorted v'.sorted) (before after : List (Text × Json)) :
    List.Forall₂ (Dictionary.EntryRel R)
      (Json.membersByKey (before ++ (key, v) :: after)).entries
      (Json.membersByKey (before ++ (key, v') :: after)).entries := by
  have hsame : ∀ ms : List (Text × Json), List.Forall₂ (Dictionary.EntryRel R) ms ms :=
    fun _ => List.forall₂_same.2 fun _ _ => ⟨rfl, hrefl _ _⟩
  refine Dictionary.forall₂_ofList ?_
  simp only [Json.sortedMembers_eq_map, List.map_append, List.map_cons]
  exact List.rel_append (hsame _) (.cons ⟨rfl, h⟩ (hsame _))

theorem forall₂_erase {R : Text → α → α → Prop} {d e : Dictionary α}
    (h : List.Forall₂ (Dictionary.EntryRel R) d.entries e.entries) (key : Text) :
    List.Forall₂ (Dictionary.EntryRel R) (d.erase key).entries (e.erase key).entries :=
  List.rel_filter (fun a b hab => by simp [hab.1]) h

/-! ## Parts -/

/-- What may stand somewhere in a document. -/
inductive Part
  | document | block | content | run | sequence | row | cell
  deriving DecidableEq, Repr

/-- The names that the members of a block of a known kind may have, besides its `type`. -/
def blockNames? (kind : Text) : Option (List Text) :=
  if kind = "meta".toList then some metaFields.names
  else if kind = "doc".toList then some proseFields.names
  else if kind = "slide".toList then some slideFields.names
  else if kind = "sheet".toList then some sheetFields.names
  else if kind = "table".toList then some tableFields.names
  else if kind = "chart".toList then some ("chartType".toList :: chartFields.names)
  else if kind = "diagram".toList then some diagramFields.names
  else if kind = "osfcode".toList ∨ kind = "code".toList then
    some ("language".toList :: listingFields.names)
  else none

/-- What the array holds that is the field of a kind of content. -/
def ContentKind.inner? : ContentKind → Option Part
  | .paragraph => some .run
  | .unorderedList | .orderedList | .quotation => some .sequence
  | .code | .image => none

namespace Part

/-- What a part stands for. -/
def Value : Part → Type
  | document => Document
  | block => Block
  | content => SlideContent
  | run => Run
  | sequence => List Run
  | row => List Text
  | cell => Text

/-- What a value stands for as a part. What lies in a block has its members sorted before it is
decoded. -/
def decode? : (p : Part) → Json → Option p.Value
  | document, v => document? v
  | block, v => (Decode.block v).toOption
  | content, v => (slideContent v.sorted).toOption
  | run, v => (Decode.run v.sorted).toOption
  | sequence, v => (runSequence v.sorted).toOption
  | row, v => (tableRow v.sorted).toOption
  | cell, v => (tableCell v.sorted).toOption

/-- The names that are declared for the members of an object, other names for a field among them,
if the object is of a known kind. -/
def names? : Part → List (Text × Json) → Option (List Text)
  | document, _ => some ["blocks".toList]
  | block, ms => (kind? ms).bind blockNames?
  | content, ms => ((kind? ms).bind ContentKind.ofTag?).map ContentKind.fieldNames
  | run, _ => some RunFields.fields.names
  | sequence, _ => some sequenceFields.names
  | row, _ => some rowFields.names
  | cell, _ => some cellFields.names

/-- What the array holds that is an object's member of the given name. -/
def inMember? : Part → List (Text × Json) → Text → Option Part
  | document, _, key => if key = "blocks".toList then some block else none
  | block, ms, key =>
    if kind? ms = some "slide".toList ∧ key = "content".toList then some content
    else if kind? ms = some "table".toList ∧ key = "rows".toList then some row
    else none
  | content, ms, key =>
    ((kind? ms).bind ContentKind.ofTag?).bind fun kind =>
      if key ∈ kind.fieldNames then kind.inner? else none
  | sequence, _, key => if key = "content".toList then some run else none
  | row, _, key => if key = "cells".toList then some cell else none
  | run, _, _ | cell, _, _ => none

/-- What an array holds. -/
def inArray? : Part → Option Part
  | document => some block
  | sequence => some run
  | block | content | run | row | cell => none

/-- What the array holds that is an item of an array behind the given ones. -/
def inItem? : Part → List Json → Option Part
  | content, [.text tag] => (ContentKind.ofTag? tag).bind ContentKind.inner?
  | row, [] => some cell
  | _, _ => none

end Part

/-- A part with one more member in one of its objects, under a name that is not declared there. -/
inductive Extended : Part → Json → Json → Prop
  | member {p : Part} {names : List Text} {key : Text} (before after : List (Text × Json))
      (value : Json) (hnames : p.names? (before ++ after) = some names)
      (htype : key ≠ "type".toList) (hkey : key ∉ names) :
      Extended p (.object (before ++ after)) (.object (before ++ (key, value) :: after))
  | inMember {p q : Part} {key : Text} {v v' : Json} (before after : List (Text × Json))
      (as bs : List Json) (hinner : p.inMember? (before ++ after) key = some q)
      (htype : key ≠ "type".toList) (h : Extended q v v') :
      Extended p (.object (before ++ (key, .array (as ++ v :: bs)) :: after))
        (.object (before ++ (key, .array (as ++ v' :: bs)) :: after))
  | inArray {p q : Part} {v v' : Json} (as bs : List Json) (hinner : p.inArray? = some q)
      (h : Extended q v v') : Extended p (.array (as ++ v :: bs)) (.array (as ++ v' :: bs))
  | inItem {p q : Part} {v v' : Json} (before after as bs : List Json)
      (hinner : p.inItem? before = some q) (h : Extended q v v') :
      Extended p (.array (before ++ .array (as ++ v :: bs) :: after))
        (.array (before ++ .array (as ++ v' :: bs) :: after))

/-! ## Objects -/

theorem toOption_mapError {ε ε' : Type} (f : ε → ε') (x : Except ε α) :
    (x.mapError f).toOption = x.toOption := by
  cases x <;> rfl

theorem decode?_block_object {ms : List (Text × Json)} {kind : Text}
    (h : (Json.membersByKey ms).get? "type".toList = some (.text kind)) :
    Part.block.decode? (.object ms)
      = (blockOfKind kind ((Json.membersByKey ms).erase "type".toList)).toOption := by
  rw [Part.decode?, block_object, blockOfMembers, h]
  exact toOption_mapError _ _

theorem tagOfMembers_of_ne : ∀ {ms : List (Text × Json)} (tag : Option Text),
    (∀ m ∈ ms, m.1 ≠ "type".toList) → tagOfMembers tag ms = .ok tag
  | [], _, _ => rfl
  | (key, _) :: ms, tag, h => by
    rw [tagOfMembers, if_neg (h _ (.head _)), tagOfMembers_of_ne tag fun m hm => h m (.tail _ hm)]

theorem tagOfMembers_of_type {members : Dictionary Json} {tag : Text}
    (h : members.get? "type".toList = some (.text tag)) :
    tagOfMembers none members.entries = .ok (some tag) := by
  obtain ⟨entries, hascending⟩ := members
  unfold Dictionary.get? at h
  simp only at h ⊢
  induction entries with
  | nil => cases h
  | cons m ms ih =>
    obtain ⟨hm, hms⟩ := List.pairwise_cons.1 hascending
    obtain ⟨key, v⟩ := m
    rw [List.find?_cons] at h
    by_cases hkey : key = "type".toList
    · rw [decide_eq_true hkey] at h
      cases h
      subst hkey
      have hne : ∀ m ∈ ms, m.1 ≠ "type".toList := fun m hmem heq =>
        List.lt_irrefl _ (heq ▸ hm m hmem)
      rw [tagOfMembers, if_pos rfl]
      exact tagOfMembers_of_ne _ hne
    · rw [decide_eq_false hkey] at h
      rw [tagOfMembers, if_neg hkey]
      exact ih hms h

theorem decode?_content_object {ms : List (Text × Json)} {tag : Text}
    (h : (Json.membersByKey ms).get? "type".toList = some (.text tag)) :
    Part.content.decode? (.object ms)
      = (contentOfMembers tag ((Json.membersByKey ms).erase "type".toList).entries).toOption := by
  rw [Part.decode?, Json.sorted_object, slideContent, tagOfMembers_of_type h]
  rfl

theorem decode?_run_object (ms : List (Text × Json)) :
    Part.run.decode? (.object ms)
      = (RunFields.fields.ofMembers [] {} (Json.membersByKey ms).entries).toOption.map
          RunFields.run := by
  simp only [Part.decode?, Json.sorted_object, Decode.run, Fields.flexible?, Fields.ofObject?]
  rcases RunFields.fields.ofMembers [] {} (Json.membersByKey ms).entries <;> rfl

theorem decode?_sequence_object (ms : List (Text × Json)) :
    Part.sequence.decode? (.object ms)
      = (sequenceFields.ofMembers [] [] (Json.membersByKey ms).entries).toOption := by
  rw [Part.decode?, Json.sorted_object, runSequence, Fields.ofObject?]
  rcases sequenceFields.ofMembers [] [] (Json.membersByKey ms).entries <;> rfl

theorem decode?_row_object (ms : List (Text × Json)) :
    Part.row.decode? (.object ms)
      = (rowFields.ofMembers [] [] (Json.membersByKey ms).entries).toOption := by
  rw [Part.decode?, Json.sorted_object]
  rfl

theorem decode?_cell_object (ms : List (Text × Json)) :
    Part.cell.decode? (.object ms)
      = (cellFields.ofMembers [] [] (Json.membersByKey ms).entries).toOption := by
  simp only [Part.decode?, Json.sorted_object, tableCell, Fields.ofObject?]
  rcases cellFields.ofMembers [] [] (Json.membersByKey ms).entries <;> rfl

/-! ## Objects with a member more -/

theorem ite_eq_ite {β : Type} {p : Prop} [Decidable p] {o o' : Option α} {a : α} {x x' y y' : β}
    (h : (if p then o else o') = some a) (hpos : o = some a → x = x')
    (hneg : o' = some a → y = y') : (if p then x else y) = if p then x' else y' := by
  split_ifs at h ⊢
  · exact hpos h
  · exact hneg h

theorem ofObject_erase {f : Fields σ} {s : σ} {key : Text} (rest : Dictionary Json)
    (h : f.field? key = none) :
    ofObject f s (rest.erase key).entries = ofObject f s rest.entries :=
  ofMembers_filter h [] s rest.entries

/-- A block of a known kind has no use for a member whose name is not declared. -/
theorem blockOfKind_erase {kind key : Text} {names : List Text} (rest : Dictionary Json)
    (hnames : blockNames? kind = some names) (hkey : key ∉ names) :
    blockOfKind kind (rest.erase key) = blockOfKind kind rest := by
  have hplain : ∀ {σ : Type} (f : Fields σ) (s : σ) (make : σ → Block), f.meaning = id →
      some f.names = some names →
        (ofObject f s (rest.erase key).entries).map make
          = (ofObject f s rest.entries).map make := by
    intro σ f s make hmeaning h
    cases h
    rw [ofObject_erase rest (field?_eq_none (congrFun hmeaning key) hkey)]
  have haliased : ∀ {σ : Type} (f : Fields σ) (s : σ) (make : σ → Block) (other : Text),
      (∀ name, name ≠ other → f.meaning name = name) → some (other :: f.names) = some names →
        (ofObject f s (rest.erase key).entries).map make
          = (ofObject f s rest.entries).map make := by
    intro σ f s make other hmeaning h
    cases h
    obtain ⟨hne, hkey⟩ := not_or.1 (mt List.mem_cons.2 hkey)
    rw [ofObject_erase rest (field?_eq_none (hmeaning key hne) hkey)]
  unfold blockNames? at hnames
  unfold blockOfKind
  dsimp only
  refine ite_eq_ite hnames (hplain metaFields {} .properties rfl) fun hnames => ?_
  refine ite_eq_ite hnames (hplain proseFields {} .doc rfl) fun hnames => ?_
  refine ite_eq_ite hnames (hplain slideFields {} .slide rfl) fun hnames => ?_
  refine ite_eq_ite hnames (hplain sheetFields {} .sheet rfl) fun hnames => ?_
  refine ite_eq_ite hnames (hplain tableFields {} .table rfl) fun hnames => ?_
  refine ite_eq_ite hnames
    (haliased chartFields {} .chart _ fun _ h => if_neg h) fun hnames => ?_
  refine ite_eq_ite hnames (hplain diagramFields {} .diagram rfl) fun hnames => ?_
  exact ite_eq_ite hnames (haliased listingFields {} .code _ fun _ h => if_neg h) nofun

theorem contentOfMembers_erase {kind : ContentKind} {tag key : Text} (rest : Dictionary Json)
    (hkind : ContentKind.ofTag? tag = some kind) (hkey : key ∉ kind.fieldNames) :
    contentOfMembers tag (rest.erase key).entries = contentOfMembers tag rest.entries := by
  unfold contentOfMembers
  rw [hkind]
  exact ofMembers_filter (field?_eq_none rfl hkey) [] _ rest.entries

theorem decode?_of_member {p : Part} {before after : List (Text × Json)} {names : List Text}
    {key : Text} (value : Json) (hnames : p.names? (before ++ after) = some names)
    (htype : key ≠ "type".toList) (hkey : key ∉ names) :
    p.decode? (.object (before ++ (key, value) :: after))
      = p.decode? (.object (before ++ after)) := by
  cases p with
  | document =>
    cases hnames
    have hne : key ≠ "blocks".toList := fun h => hkey (h ▸ .head _)
    have hblocks : ((before ++ (key, value) :: after).filter fun m => m.1 = "blocks".toList)
        = (before ++ after).filter fun m => m.1 = "blocks".toList := by
      rw [List.filter_append, List.filter_append, List.filter_cons,
        if_neg (mt of_decide_eq_true hne)]
    rw [Part.decode?, Part.decode?, document?, document?, hblocks]
  | block =>
    obtain ⟨kind, hkind, hnames⟩ := Option.bind_eq_some_iff.1 hnames
    -- the members are the same once the new one is erased, which decoding does not notice
    rw [decode?_block_object (get?_type hkind),
      decode?_block_object (get?_type_of_kind? hkind htype),
      ← blockOfKind_erase _ hnames hkey, erase_comm, erase_membersByKey, erase_comm,
      blockOfKind_erase _ hnames hkey]
  | content =>
    obtain ⟨kind, hkind, rfl⟩ := Option.map_eq_some_iff.1 hnames
    obtain ⟨tag, htag, hkind⟩ := Option.bind_eq_some_iff.1 hkind
    rw [decode?_content_object (get?_type htag),
      decode?_content_object (get?_type_of_kind? htag htype),
      ← contentOfMembers_erase _ hkind hkey, erase_comm, erase_membersByKey, erase_comm,
      contentOfMembers_erase _ hkind hkey]
  | run =>
    cases hnames
    rw [decode?_run_object, decode?_run_object, ofMembers_membersByKey (field?_eq_none rfl hkey)]
  | sequence =>
    cases hnames
    rw [decode?_sequence_object, decode?_sequence_object,
      ofMembers_membersByKey (field?_eq_none rfl hkey)]
  | row =>
    cases hnames
    rw [decode?_row_object, decode?_row_object, ofMembers_membersByKey (field?_eq_none rfl hkey)]
  | cell =>
    cases hnames
    rw [decode?_cell_object, decode?_cell_object, ofMembers_membersByKey (field?_eq_none rfl hkey)]

/-! ## Objects with another value -/

theorem toOption_exceptMap {ε β : Type} (f : α → β) (x : Except ε α) :
    (x.map f).toOption = x.toOption.map f := by
  cases x <;> rfl

theorem map_self {ε : Type} (x : Except ε α) : (x.map fun a => a) = x := by
  cases x <;> rfl

theorem toOption_list_middle {decode : Json → Decoded α} {v v' : Json}
    (h : (decode v.sorted).toOption = (decode v'.sorted).toOption) (as bs : List Json) :
    (list decode (Json.array (as ++ v :: bs)).sorted).toOption
      = (list decode (Json.array (as ++ v' :: bs)).sorted).toOption := by
  simp only [Json.sorted_array, list, toOption_each, List.map_append, List.map_cons]
  exact mapM_middle (fun v => (decode v).toOption) h _ _

theorem toOption_ofMembers_middle {f : Fields σ} {P : σ → Prop}
    (hP : ∀ name value s s', P s → f.assign name value s = .ok s' → P s') {s : σ} (hs : P s)
    {key : Text} {v v' : Json} (h : f.SetsAlike P key v.sorted v'.sorted)
    (before after : List (Text × Json)) :
    (f.ofMembers [] s (Json.membersByKey (before ++ (key, v) :: after)).entries).toOption
      = (f.ofMembers [] s (Json.membersByKey (before ++ (key, v') :: after)).entries).toOption :=
  toOption_ofMembers_congr hP (forall₂_membersByKey (fun _ _ _ _ _ _ => rfl) h before after) [] s hs

theorem toOption_ofMembers_erase_middle {f : Fields σ} {P : σ → Prop}
    (hP : ∀ name value s s', P s → f.assign name value s = .ok s' → P s') {s : σ} (hs : P s)
    {key : Text} {v v' : Json} (h : f.SetsAlike P key v.sorted v'.sorted)
    (before after : List (Text × Json)) (erased : Text) :
    (f.ofMembers [] s
        ((Json.membersByKey (before ++ (key, v) :: after)).erase erased).entries).toOption
      = (f.ofMembers [] s
        ((Json.membersByKey (before ++ (key, v') :: after)).erase erased).entries).toOption :=
  toOption_ofMembers_congr hP
    (forall₂_erase (forall₂_membersByKey (fun _ _ _ _ _ _ => rfl) h before after) erased) [] s hs

/-- A field that is set from an array of parts is set alike from parts that decode alike. -/
theorem setsAlike_of_list {f : Fields σ} {P : σ → Prop} {key : Text} {decode : Json → Decoded α}
    (put : List α → σ → σ) (hmeaning : f.meaning key = key)
    (hassign : ∀ value s, P s → f.assign key value s = (list decode value).map (put · s))
    {v v' : Json} (h : (decode v.sorted).toOption = (decode v'.sorted).toOption)
    (as bs : List Json) :
    f.SetsAlike P key (Json.array (as ++ v :: bs)).sorted (Json.array (as ++ v' :: bs)).sorted := by
  intro name hname s hs
  have hname : key = name := by
    rw [Fields.field?, hmeaning] at hname
    split_ifs at hname
    exact Option.some.inj hname
  rw [← hname, hassign _ _ hs, hassign _ _ hs, toOption_exceptMap, toOption_exceptMap,
    toOption_list_middle h]

theorem assign_slide_content (value : Json) (s : Slide) :
    slideFields.assign "content".toList value s
      = (list slideContent value).map fun c => { s with content := c } := by
  delta slideFields
  dsimp only
  rw [if_neg (by decide), if_neg (by decide), if_pos rfl]

theorem assign_table_rows (value : Json) (t : Table) :
    tableFields.assign "rows".toList value t
      = (list tableRow value).map fun r => { t with rows := r } := by
  delta tableFields
  dsimp only
  rw [if_neg (by decide), if_neg (by decide), if_neg (by decide), if_neg (by decide)]

theorem blockOfKind_slide (rest : Dictionary Json) :
    blockOfKind "slide".toList rest = (ofObject slideFields {} rest.entries).map .slide := by
  unfold blockOfKind
  dsimp only
  rw [if_neg (by decide), if_neg (by decide), if_pos rfl]

theorem blockOfKind_table (rest : Dictionary Json) :
    blockOfKind "table".toList rest = (ofObject tableFields {} rest.entries).map .table := by
  unfold blockOfKind
  dsimp only
  rw [if_neg (by decide), if_neg (by decide), if_neg (by decide), if_neg (by decide), if_pos rfl]

namespace ContentKind

/-- That content is of a kind. -/
def Holds : ContentKind → SlideContent → Prop
  | paragraph, .paragraph _ | unorderedList, .unorderedList _ | orderedList, .orderedList _
  | quotation, .quotation _ | code, .code _ | image, .image _ _ => True
  | _, _ => False

theorem holds_empty (kind : ContentKind) : kind.Holds kind.empty := by
  cases kind <;> trivial

theorem holds_assign {kind : ContentKind} (name : Text) (value : Json) (s s' : SlideContent)
    (hs : kind.Holds s) (h : kind.fields.assign name value s = .ok s') : kind.Holds s' := by
  have hmap : ∀ {α : Type} {x : Decoded α} {f : α → SlideContent}, x.map f = .ok s' →
      ∃ a, f a = s' := by
    intro α x f hx
    rcases x with e | a
    · cases hx
    · exact ⟨a, Except.ok.inj hx⟩
  cases kind <;> cases s <;> first | exact hs.elim | obtain ⟨a, rfl⟩ := hmap h
  case image => split_ifs <;> trivial
  all_goals trivial

end ContentKind

theorem setsAlike_content {kind : ContentKind} {q : Part} (key : Text) {v v' : Json}
    (hinner : kind.inner? = some q) (h : q.decode? v = q.decode? v') (as bs : List Json) :
    kind.fields.SetsAlike kind.Holds key (Json.array (as ++ v :: bs)).sorted
      (Json.array (as ++ v' :: bs)).sorted := by
  cases kind with
  | paragraph =>
    cases hinner
    refine setsAlike_of_list (fun items _ => .paragraph items) rfl (fun value s hs => ?_) h as bs
    cases s <;> first | rfl | exact hs.elim
  | unorderedList =>
    cases hinner
    refine setsAlike_of_list (fun items _ => .unorderedList items) rfl (fun value s hs => ?_) h as
      bs
    cases s <;> first | rfl | exact hs.elim
  | orderedList =>
    cases hinner
    refine setsAlike_of_list (fun items _ => .orderedList items) rfl (fun value s hs => ?_) h as bs
    cases s <;> first | rfl | exact hs.elim
  | quotation =>
    cases hinner
    refine setsAlike_of_list (fun items _ => .quotation items) rfl (fun value s hs => ?_) h as bs
    cases s <;> first | rfl | exact hs.elim
  | code => cases hinner
  | image => cases hinner

theorem decode?_of_inMember {p q : Part} {before after : List (Text × Json)} {key : Text}
    {v v' : Json} (hinner : p.inMember? (before ++ after) key = some q)
    (htype : key ≠ "type".toList) (h : q.decode? v = q.decode? v') (as bs : List Json) :
    p.decode? (.object (before ++ (key, .array (as ++ v :: bs)) :: after))
      = p.decode? (.object (before ++ (key, .array (as ++ v' :: bs)) :: after)) := by
  cases p with
  | document =>
    rw [Part.inMember?] at hinner
    split_ifs at hinner with hkey
    cases hinner
    refine document?_object_middle ?_ key before after
    simp only [list, toOption_each]
    exact mapM_middle (fun v => (block v).toOption) h as bs
  | block =>
    rw [Part.inMember?] at hinner
    split_ifs at hinner with hslide htable
    · cases hinner
      obtain ⟨hkind, rfl⟩ := hslide
      rw [decode?_block_object (get?_type_of_kind? hkind htype),
        decode?_block_object (get?_type_of_kind? hkind htype), blockOfKind_slide,
        blockOfKind_slide, toOption_exceptMap, toOption_exceptMap, ofObject, ofObject,
        toOption_ofMembers_erase_middle (P := fun _ => True) (fun _ _ _ _ _ _ => trivial) trivial
          (setsAlike_of_list (fun c s => { s with content := c }) rfl
            (fun value s _ => assign_slide_content value s) h as bs)]
    · cases hinner
      obtain ⟨hkind, rfl⟩ := htable
      rw [decode?_block_object (get?_type_of_kind? hkind htype),
        decode?_block_object (get?_type_of_kind? hkind htype), blockOfKind_table,
        blockOfKind_table, toOption_exceptMap, toOption_exceptMap, ofObject, ofObject,
        toOption_ofMembers_erase_middle (P := fun _ => True) (fun _ _ _ _ _ _ => trivial) trivial
          (setsAlike_of_list (fun r t => { t with rows := r }) rfl
            (fun value t _ => assign_table_rows value t) h as bs)]
  | content =>
    obtain ⟨kind, hkind, hinner⟩ := Option.bind_eq_some_iff.1 hinner
    obtain ⟨tag, htag, hkind⟩ := Option.bind_eq_some_iff.1 hkind
    split_ifs at hinner
    rw [decode?_content_object (get?_type_of_kind? htag htype),
      decode?_content_object (get?_type_of_kind? htag htype), contentOfMembers, contentOfMembers,
      hkind]
    exact toOption_ofMembers_erase_middle ContentKind.holds_assign kind.holds_empty
      (setsAlike_content key hinner h as bs) before after _
  | sequence =>
    rw [Part.inMember?] at hinner
    split_ifs at hinner with hkey
    cases hinner
    rw [decode?_sequence_object, decode?_sequence_object]
    exact toOption_ofMembers_middle (P := fun _ => True) (fun _ _ _ _ _ _ => trivial) trivial
      (setsAlike_of_list (fun rs _ => rs) rfl (fun _ _ _ => (map_self _).symm) h as bs) before after
  | row =>
    rw [Part.inMember?] at hinner
    split_ifs at hinner with hkey
    cases hinner
    rw [decode?_row_object, decode?_row_object]
    exact toOption_ofMembers_middle (P := fun _ => True) (fun _ _ _ _ _ _ => trivial) trivial
      (setsAlike_of_list (fun cells _ => cells) rfl (fun _ _ _ => (map_self _).symm) h as bs)
      before after
  | run => cases hinner
  | cell => cases hinner

/-! ## Arrays with another item -/

theorem toOption_runSequence_array (items : List Json) :
    (runSequence (.array items)).toOption = (list Decode.run (.array items)).toOption := by
  unfold runSequence runs
  rcases list Decode.run (.array items) <;> rfl

theorem decode?_of_inArray {p q : Part} {v v' : Json} (hinner : p.inArray? = some q)
    (h : q.decode? v = q.decode? v') (as bs : List Json) :
    p.decode? (.array (as ++ v :: bs)) = p.decode? (.array (as ++ v' :: bs)) := by
  cases p with
  | document =>
    cases hinner
    exact document?_array_middle h as bs
  | sequence =>
    cases hinner
    have hlist := toOption_list_middle h as bs
    rw [Json.sorted_array, Json.sorted_array] at hlist
    rw [Part.decode?, Part.decode?, Json.sorted_array, Json.sorted_array,
      toOption_runSequence_array, toOption_runSequence_array, hlist]
  | block | content | run | row | cell => cases hinner

/-- Content written as an array whose kind has one field. -/
theorem toOption_contentOfItems {kind : ContentKind} {tag name : Text} (value : Json)
    (rest : List Json) (hkind : ContentKind.ofTag? tag = some kind)
    (hname : kind.fieldNames = [name]) :
    (contentOfItems tag (value :: rest)).toOption
      = if rest = [] then (kind.fields.assign name value kind.empty).toOption else none := by
  unfold contentOfItems
  simp only [hkind, hname, Fields.ofItems]
  rcases kind.fields.assign name value kind.empty with e | content
  · split_ifs <;> rfl
  · cases rest <;> rfl

theorem exists_fieldNames {kind : ContentKind} {q : Part} (h : kind.inner? = some q) :
    ∃ name, kind.fieldNames = [name] ∧ kind.fields.field? name = some name := by
  cases kind <;> first | exact ⟨_, rfl, rfl⟩ | cases h

theorem toOption_tableRow_array (value : Json) (rest : List Json) :
    (tableRow (.array (value :: rest))).toOption
      = if rest = [] then (list tableCell value).toOption else none := by
  unfold tableRow
  simp only [rowFields, Fields.ofItems]
  rcases list tableCell value with e | cells
  · split_ifs <;> rfl
  · cases rest <;> rfl

theorem decode?_content_array (tag : Text) (value : Json) (rest : List Json) :
    Part.content.decode? (.array ([.text tag] ++ value :: rest))
      = (contentOfItems tag (value.sorted :: rest.map Json.sorted)).toOption := by
  rw [Part.decode?, Json.sorted_array, List.map_append, List.map_cons, List.map_cons,
    Json.sorted_of_isScalar rfl]
  rfl

theorem decode?_row_array (value : Json) (rest : List Json) :
    Part.row.decode? (.array ([] ++ value :: rest))
      = (tableRow (.array (value.sorted :: rest.map Json.sorted))).toOption := by
  rw [Part.decode?, Json.sorted_array]
  rfl

theorem decode?_of_inItem {p q : Part} {before : List Json} {v v' : Json}
    (hinner : p.inItem? before = some q) (h : q.decode? v = q.decode? v')
    (after as bs : List Json) :
    p.decode? (.array (before ++ .array (as ++ v :: bs) :: after))
      = p.decode? (.array (before ++ .array (as ++ v' :: bs) :: after)) := by
  unfold Part.inItem? at hinner
  split at hinner
  · rename_i tag
    obtain ⟨kind, hkind, hinner⟩ := Option.bind_eq_some_iff.1 hinner
    obtain ⟨name, hname, hfield⟩ := exists_fieldNames hinner
    have hset := setsAlike_content name hinner h as bs name hfield _ kind.holds_empty
    rw [decode?_content_array, decode?_content_array,
      toOption_contentOfItems _ _ hkind hname, toOption_contentOfItems _ _ hkind hname, hset]
  · cases hinner
    rw [decode?_row_array, decode?_row_array, toOption_tableRow_array, toOption_tableRow_array,
      toOption_list_middle h]
  · cases hinner

/-- A part decodes as before when an object in it has one more member that is not declared. -/
theorem decode?_of_extended {p : Part} {v v' : Json} (h : Extended p v v') :
    p.decode? v = p.decode? v' := by
  induction h with
  | member before after value hnames htype hkey =>
    exact (decode?_of_member value hnames htype hkey).symm
  | inMember before after as bs hinner htype _ ih => exact decode?_of_inMember hinner htype ih as bs
  | inArray as bs hinner _ ih => exact decode?_of_inArray hinner ih as bs
  | inItem before after as bs hinner _ ih => exact decode?_of_inItem hinner ih after as bs

end Decode

/-! ## Documents -/

/-- One object of a value has its members in another order, or one of the objects that are decoded
has a member more that is not known. -/
inductive Edited (v v' : Json) : Prop
  | reordered (h : v.Reordered v')
  | extended (h : Decode.Extended .document v v')

theorem document?_of_edits {v v' : Json} (h : Relation.ReflTransGen Edited v v') :
    Decode.document? v = Decode.document? v' := by
  induction h with
  | refl => rfl
  | tail _ h ih =>
    refine ih.trans ?_
    cases h with
    | reordered h => exact Decode.document?_of_reordered h
    | extended h => exact Decode.decode?_of_extended h

/-- Neither the order of members nor members that are not known have a say in whether a text is a
document, nor in which one it is. -/
theorem readSource_ignores_edits {source source' : Text} {v v' : Json} (h : Reads source v)
    (h' : Reads source' v') (hedits : Relation.ReflTransGen Edited v v') :
    (readSource source').toOption = (readSource source).toOption := by
  rw [readSource_toOption h, readSource_toOption h', document?_of_edits hedits]

theorem readSource_ignores_edits_prose :
    (readSource "[\x7b\"x\":0,\"content\":\"a\",\"type\":\"doc\"\x7d]".toList).toOption
      = (readSource "[\x7b\"type\":\"doc\",\"content\":\"a\"\x7d]".toList).toOption := by
  have h : Reads "[\x7b\"type\":\"doc\",\"content\":\"a\"\x7d]".toList
      (.array [.object [("type".toList, .text "doc".toList),
        ("content".toList, .text "a".toList)]]) := by
    delta Reads Json.readValue
    repeat rw [String.toList_ofList]
    rfl
  have h' : Reads "[\x7b\"x\":0,\"content\":\"a\",\"type\":\"doc\"\x7d]".toList
      (.array [.object [("x".toList, .integer 0), ("content".toList, .text "a".toList),
        ("type".toList, .text "doc".toList)]]) := by
    delta Reads Json.readValue
    repeat rw [String.toList_ofList]
    rfl
  have hreordered : Edited
      (.array [.object [("type".toList, .text "doc".toList),
        ("content".toList, .text "a".toList)]])
      (.array [.object [("content".toList, .text "a".toList),
        ("type".toList, .text "doc".toList)]]) :=
    .reordered (.inItem [] [] (.members (by decide) (.swap _ _ _)))
  refine readSource_ignores_edits h h' (.tail (.single hreordered) (.extended ?_))
  have hnames : Decode.Part.block.names? [("content".toList, .text "a".toList),
      ("type".toList, .text "doc".toList)] = some ["content".toList] := by
    decide
  exact .inArray [] [] rfl (.member [] _ (.integer 0) hnames (by decide) (by decide))

end BlockDocument
