import Mathlib.Data.Option.Basic
import BlockDocument.Include
import BlockDocument.Proofs.PassingOver

/-!
# The values of documents

A text that says a JSON value is read as a document exactly if the value decodes as one
(`readSource_toOption`), although reading takes another way: each block is decoded as soon as it
has been read, and of a root object all members but `blocks` are passed over.
-/

namespace BlockDocument

namespace Json

variable {ε α β : Type}

theorem toOption_eq_some {o : Except ε α} {a : α} : o.toOption = some a ↔ o = .ok a := by
  rcases o with e | b
  · exact ⟨nofun, nofun⟩
  · exact ⟨fun h => congrArg _ (Option.some.inj h), fun h => by rw [h]; rfl⟩

theorem toOption_map (f : α → β) (o : Outcome ε α) :
    (Outcome.map f o).toOption = o.toOption.map fun r => (f r.1, r.2) := by
  rcases o with e | ⟨a, c⟩ <;> rfl

theorem toOption_readItems (read : Nat → Cursor → Outcome ε α) (fuel index : Nat) (c : Cursor) :
    (readItems read (fuel + 1) index c).toOption =
      (nextItem index c : Outcome ε Bool).toOption.bind fun next =>
        if next.1 then
          (read index next.2).toOption.bind fun item =>
            (readItems read fuel (index + 1) item.2).toOption.map fun items =>
              (item.1 :: items.1, items.2)
        else some ([], next.2) := by
  rw [readItems_succ]
  rcases (nextItem index c : Outcome ε Bool) with e | ⟨_ | _, d⟩
  · rfl
  · rfl
  · rcases hitem : read index d with e | ⟨a, e⟩ <;>
      simp only [Except.toOption, Option.bind_some, if_true, hitem]
    · rfl
    · rcases readItems read fuel (index + 1) e with f | ⟨as, c'⟩ <;> rfl

theorem toOption_readMembers (read : List Text → Text → Cursor → Outcome ε α) (fuel : Nat)
    (seen : List Text) (c : Cursor) :
    (readMembers read (fuel + 1) seen c).toOption =
      (nextMember seen.isEmpty c : Outcome ε (Option Text)).toOption.bind fun next =>
        next.1.elim (some ([], next.2)) fun key =>
          (read seen key next.2).toOption.bind fun value =>
            (readMembers read fuel (key :: seen) value.2).toOption.map fun members =>
              ((key, value.1) :: members.1, members.2) := by
  rw [readMembers_succ]
  rcases (nextMember seen.isEmpty c : Outcome ε (Option Text)) with e | ⟨_ | key, d⟩
  · rfl
  · rfl
  · rcases hvalue : read seen key d with e | ⟨a, e⟩ <;>
      simp only [Except.toOption, Option.bind_some, Option.elim_some, hvalue]
    · rfl
    · rcases readMembers read fuel (key :: seen) e with f | ⟨as, c'⟩ <;> rfl

/-- Reading items with another reader gives what the values of the items are mapped to. -/
theorem readItems_mapM {read : Nat → Cursor → Outcome ε Json} {read' : Nat → Cursor → Outcome ε α}
    {f : Json → Option α}
    (h : ∀ index c v c', read index c = .ok (v, c') →
      (read' index c).toOption = (f v).map (·, c')) :
    ∀ {fuel index : Nat} {c c' : Cursor} {vs : List Json},
      readItems read fuel index c = .ok (vs, c') →
        (readItems read' fuel index c).toOption = (vs.mapM f).map (·, c')
  | 0, _, _, _, _, hread => by cases hread
  | fuel + 1, index, c, c', vs, hread => by
    rw [← toOption_eq_some, toOption_readItems, Option.bind_eq_some_iff] at hread
    obtain ⟨⟨more, d⟩, hnext, hread⟩ := hread
    rw [toOption_readItems, hnext, Option.bind_some]
    cases more with
    | false =>
      cases hread
      rfl
    | true =>
      obtain ⟨⟨v, e⟩, hitem, hread⟩ := Option.bind_eq_some_iff.1 hread
      obtain ⟨⟨vs, c''⟩, hitems, hread⟩ := Option.map_eq_some_iff.1 hread
      cases hread
      have hitem' := h _ _ _ _ (toOption_eq_some.1 hitem)
      have hitems' := readItems_mapM h (toOption_eq_some.1 hitems)
      rw [if_pos rfl, hitem', List.mapM_cons]
      rcases f v with _ | a
      · rfl
      · rw [Option.map_some, Option.bind_some, hitems']
        rcases vs.mapM f <;> rfl

/-- Reading members with another reader gives what the keys and values are mapped to. -/
theorem readMembers_mapM {read : List Text → Text → Cursor → Outcome ε Json}
    {read' : List Text → Text → Cursor → Outcome ε α} {f : Text → Json → Option α}
    (h : ∀ seen key c v c', read seen key c = .ok (v, c') →
      (read' seen key c).toOption = (f key v).map (·, c')) :
    ∀ {fuel : Nat} {seen : List Text} {c c' : Cursor} {ms : List (Text × Json)},
      readMembers read fuel seen c = .ok (ms, c') →
        (readMembers read' fuel seen c).toOption
          = (ms.mapM fun m => (f m.1 m.2).map (m.1, ·)).map (·, c')
  | 0, _, _, _, _, hread => by cases hread
  | fuel + 1, seen, c, c', ms, hread => by
    rw [← toOption_eq_some, toOption_readMembers, Option.bind_eq_some_iff] at hread
    obtain ⟨⟨key, d⟩, hnext, hread⟩ := hread
    rw [toOption_readMembers, hnext, Option.bind_some]
    cases key with
    | none =>
      cases hread
      rfl
    | some key =>
      obtain ⟨⟨v, e⟩, hvalue, hread⟩ := Option.bind_eq_some_iff.1 hread
      obtain ⟨⟨ms, c''⟩, hmembers, hread⟩ := Option.map_eq_some_iff.1 hread
      cases hread
      have hvalue' := h _ _ _ _ _ (toOption_eq_some.1 hvalue)
      have hmembers' := readMembers_mapM h (toOption_eq_some.1 hmembers)
      rw [Option.elim_some, hvalue', List.mapM_cons]
      rcases f key v with _ | a
      · rfl
      · rw [Option.map_some, Option.bind_some, hmembers']
        dsimp only
        generalize List.mapM (fun m : Text × Json => (f m.1 m.2).map (m.1, ·)) ms = members
        rcases members <;> rfl

theorem toOption_refuse (mismatch : Found → ε) (c : Cursor) :
    (refuse mismatch c : Outcome ε α).toOption = none := by
  unfold refuse
  split
  · rfl
  · rfl
  · split <;> rfl

/-! ## Forms of values -/

/-- Whether a value is neither an array nor an object. -/
def isScalar : Json → Bool
  | .array _ | .object _ => false
  | _ => true

theorem isScalar_of_realOf {negative : Bool} {parts : RealParts} {c c' : Cursor} {v : Json}
    (h : (realOf negative parts c : Outcome ε Json) = .ok (v, c')) : v.isScalar = true := by
  unfold realOf at h
  split at h
  · cases h
    rfl
  · cases h

theorem isScalar_of_readExponent {negative : Bool} {parts : RealParts} {c c' : Cursor} {v : Json}
    (h : (readExponent negative parts c : Outcome ε Json) = .ok (v, c')) :
    v.isScalar = true := by
  unfold readExponent at h
  simp only at h
  generalize (if (decide (c.rest.head? = some '-') || decide (c.rest.head? = some '+')) = true
    then c.advance else c) = signed at h
  split at h
  · cases h
  split at h
  · cases h
  split at h
  · split at h
    · cases h
    · cases h
      rfl
  · exact isScalar_of_realOf h

theorem isScalar_of_readRealEnd {negative : Bool} {parts : RealParts} {c c' : Cursor} {v : Json}
    (h : (readRealEnd negative parts c : Outcome ε Json) = .ok (v, c')) :
    v.isScalar = true := by
  unfold readRealEnd at h
  split at h
  · exact isScalar_of_readExponent h
  · exact isScalar_of_readExponent h
  · exact isScalar_of_realOf h

theorem isScalar_integerOf (negative : Bool) (n : Nat) :
    (integerOf negative n).isScalar = true := by
  unfold integerOf
  split_ifs <;> rfl

theorem isScalar_of_readNumber {negative : Bool} {c c' : Cursor} {v : Json}
    (h : (readNumber negative c : Outcome ε Json) = .ok (v, c')) : v.isScalar = true := by
  unfold readNumber at h
  simp only at h
  split at h
  · cases h
  split at h
  · cases h
  split at h
  · cases h
  split at h
  · unfold readFraction at h
    simp only at h
    split at h
    · cases h
    · exact isScalar_of_readRealEnd h
  · exact isScalar_of_readExponent h
  · exact isScalar_of_readExponent h
  · split at h
    · cases h
      exact isScalar_integerOf _ _
    · exact isScalar_of_realOf h

theorem isScalar_of_readScalar {c c' : Cursor} {v : Json}
    (h : (readScalar c : Outcome ε Json) = .ok (v, c')) : v.isScalar = true := by
  unfold readScalar at h
  split at h
  · cases h
  · obtain ⟨-, -, rfl⟩ := Outcome.map_eq_ok h
    rfl
  · obtain ⟨-, -, rfl⟩ := Outcome.map_eq_ok h
    rfl
  · obtain ⟨-, -, rfl⟩ := Outcome.map_eq_ok h
    rfl
  · obtain ⟨-, -, rfl⟩ := Outcome.map_eq_ok h
    rfl
  · exact isScalar_of_readNumber h
  · split at h
    · exact isScalar_of_readNumber h
    · cases h

/-- The ways in which a value is read. -/
inductive ReadAs (ε : Type) (fuel : Nat) : Nat → Cursor → Json → Cursor → Prop
  | array {depth : Nat} {c c' : Cursor} {rest : Text} {items : List Json}
      (hrest : c.skipSpace.rest = '[' :: rest)
      (hitems : (readItems (fun _ => readValue fuel depth) fuel 0 c.skipSpace.advance
        : Outcome ε (List Json)) = .ok (items, c')) : ReadAs ε fuel (depth + 1) c (.array items) c'
  | object {depth : Nat} {c c' : Cursor} {rest : Text} {members : List (Text × Json)}
      (hrest : c.skipSpace.rest = '{' :: rest)
      (hmembers : (readMembers (fun _ _ => readAfterColon (readValue fuel depth)) fuel []
        c.skipSpace.advance : Outcome ε (List (Text × Json))) = .ok (members, c')) :
      ReadAs ε fuel (depth + 1) c (.object members) c'
  | scalar {depth : Nat} {c c' : Cursor} {v : Json}
      (harray : ∀ rest, c.skipSpace.rest ≠ '[' :: rest)
      (hobject : ∀ rest, c.skipSpace.rest ≠ '{' :: rest)
      (hv : v.isScalar = true) : ReadAs ε fuel depth c v c'

theorem readAs_of_readValue {fuel depth : Nat} {c c' : Cursor} {v : Json}
    (h : (readValue fuel depth c : Outcome ε Json) = .ok (v, c')) :
    ReadAs ε fuel depth c v c' := by
  unfold readValue at h
  simp only at h
  split at h
  · cases h
  · cases h
  · obtain ⟨items, hitems, rfl⟩ := Outcome.map_eq_ok h
    exact .array ‹_› hitems
  · obtain ⟨members, hmembers, rfl⟩ := Outcome.map_eq_ok h
    exact .object ‹_› hmembers
  · refine .scalar (fun rest hrest => ?_) (fun rest hrest => ?_) (isScalar_of_readScalar h)
    · simp only [readScalar, hrest] at h
      cases h
    · simp only [readScalar, hrest] at h
      cases h

end Json

namespace Decode

open Json (Cursor Outcome)

variable {α : Type}

/-! ## Arrays of values -/

theorem toOption_each (decode : Json → Decoded α) : ∀ vs : List Json,
    (each decode vs).toOption = vs.mapM fun v => (decode v).toOption
  | [] => rfl
  | v :: vs => by
    rw [List.mapM_cons, ← toOption_each decode vs, each]
    rcases decode v with e | a
    · rfl
    · rcases each decode vs <;> rfl

theorem toOption_list_of_isScalar (decode : Json → Decoded α) {v : Json}
    (h : v.isScalar = true) : (list decode v).toOption = none := by
  cases v <;> first | rfl | cases h

theorem toOption_readDecoded {decode : Json → Decoded α} {fuel depth : Nat} {c c' : Cursor}
    {v : Json} (h : (Json.readValue fuel depth c : Outcome Mismatch Json) = .ok (v, c')) :
    (readDecoded decode fuel depth c).toOption = (decode v).toOption.map (·, c') := by
  simp only [readDecoded, h]
  rcases decode v <;> rfl

theorem toOption_readDecodedArray {decode : Json → Decoded α} {fuel depth : Nat} {c c' : Cursor}
    {v : Json} (h : (Json.readValue fuel depth c : Outcome Mismatch Json) = .ok (v, c')) :
    (readDecodedArray decode fuel depth c).toOption = (list decode v).toOption.map (·, c') := by
  unfold readDecodedArray Json.readArray
  cases Json.readAs_of_readValue h with
  | array hrest hitems =>
    simp only [hrest, list, toOption_each]
    exact Json.readItems_mapM (fun _ _ _ _ h => toOption_readDecoded h) hitems
  | object hrest =>
    simp only [hrest]
    exact Json.toOption_refuse _ _
  | scalar harray _ hv =>
    rw [toOption_list_of_isScalar decode hv]
    simp only
    split
    · exact absurd ‹_› (harray _)
    · exact absurd ‹_› (harray _)
    · exact Json.toOption_refuse _ _

/-! ## Documents -/

/-- The document that a value stands for. -/
def document? : Json → Option Document
  | .array items => (items.mapM fun v => (block v).toOption).map .mk
  | .object members =>
    ((members.filter fun m => m.1 = "blocks".toList).mapM fun m =>
      (list block m.2).toOption).map fun lists => ⟨lists.getLast?.getD []⟩
  | _ => none

/-- What is kept of a member of the root object. -/
def rootMember? (key : Text) (value : Json) : Option (Option (List Block)) :=
  if key = "blocks".toList then (list block value).toOption.map some else some none

theorem toOption_readRootMember (key : Text) {fuel depth : Nat} {c c' : Cursor} {v : Json}
    (h : (Json.readAfterColon (Json.readValue fuel depth) c : Outcome Mismatch Json)
      = .ok (v, c')) :
    (readRootMember fuel depth key c).toOption = (rootMember? key v).map (·, c') := by
  unfold Json.readAfterColon at h
  unfold readRootMember rootMember?
  rcases hcolon : (Json.readColon c : Except (Json.Stop Mismatch) Cursor) with e | d <;>
    simp only [hcolon] at h
  · cases h
  split_ifs
  · simp only [Json.readAfterColon, hcolon, Json.toOption_map, toOption_readDecodedArray h]
    rcases (list block v).toOption <;> rfl
  · simp only [Json.readAfterColon, hcolon, Json.skipValue_of_readValue h]
    rfl

theorem mapM_rootMember? : ∀ members : List (Text × Json),
    (members.mapM fun m => (rootMember? m.1 m.2).map (m.1, ·)).map (·.filterMap (·.2))
      = (members.filter fun m => m.1 = "blocks".toList).mapM fun m => (list block m.2).toOption
  | [] => rfl
  | (key, v) :: members => by
    have ih := mapM_rootMember? members
    rw [List.mapM_cons, List.filter_cons, rootMember?]
    generalize List.mapM (fun m : Text × Json => (rootMember? m.1 m.2).map (m.1, ·)) members
      = mapped at ih
    by_cases hkey : key = "blocks".toList
    · rw [if_pos hkey, if_pos (decide_eq_true hkey), List.mapM_cons, ← ih]
      rcases (list block v).toOption with _ | bs
      · rfl
      · rcases mapped <;> rfl
    · rw [if_neg hkey, if_neg (mt of_decide_eq_true hkey), ← ih]
      rcases mapped <;> rfl

theorem map_documentOfMembers (members : List (Text × Json)) :
    (members.mapM fun m => (rootMember? m.1 m.2).map (m.1, ·)).map documentOfMembers
      = document? (.object members) := by
  rw [document?, ← mapM_rootMember?, Option.map_map]
  congr 1
  funext ms
  rw [documentOfMembers, ← List.getLast?_filterMap]
  rfl

theorem toOption_readDocument {fuel : Nat} {c c' : Cursor} {v : Json}
    (h : (Json.readValue fuel Json.nestingLimit c : Outcome Mismatch Json) = .ok (v, c')) :
    (readDocument fuel c).toOption = (document? v).map (·, c') := by
  unfold readDocument
  cases Json.readAs_of_readValue h with
  | array hrest hitems =>
    simp only [hrest, Json.toOption_map, document?]
    rw [Json.readItems_mapM (fun _ _ _ _ h => toOption_readDecoded h) hitems]
    simp only [Option.map_map]
    rfl
  | object hrest hmembers =>
    simp only [hrest, Json.toOption_map, ← map_documentOfMembers]
    have hread : (Json.readMembers (fun _ key => readRootMember fuel (Json.nestingLimit - 1) key)
        fuel [] c.skipSpace.advance).toOption = _ :=
      Json.readMembers_mapM (fun _ key _ _ _ h => toOption_readRootMember key h) hmembers
    rw [hread]
    simp only [Option.map_map]
    rfl
  | scalar harray hobject hv =>
    have hnone : document? v = none := by cases v <;> first | rfl | cases hv
    rw [hnone]
    simp only
    exact Json.toOption_refuse _ _

end Decode

/-- That a text says a JSON value, nested no deeper than the limit. -/
def Reads (source : Text) (v : Json) : Prop :=
  (Json.readAll (fun fuel => Json.readValue fuel Json.nestingLimit) source
    : Except (Json.Stop Decode.Mismatch) Json) = .ok v

/-- A text that says a value is a document exactly if the value decodes as one. -/
theorem readSource_toOption {source : Text} {v : Json} (h : Reads source v) :
    (readSource source).toOption = Decode.document? v := by
  unfold Reads Json.readAll at h
  unfold readSource Json.readAll
  rcases hread : (Json.readValue (Json.fuelFor source) Json.nestingLimit ⟨source, {}⟩
    : Json.Outcome Decode.Mismatch Json) with e | ⟨w, c⟩ <;> simp only [hread] at h
  · cases h
  split at h
  · rename_i hend
    cases h
    have hdocument := Decode.toOption_readDocument hread
    rcases hd : Decode.readDocument (Json.fuelFor source) ⟨source, {}⟩ with e | ⟨d, c'⟩ <;>
      rw [hd] at hdocument <;>
      rcases hv : Decode.document? v with _ | d' <;> rw [hv] at hdocument <;> cases hdocument
    · rfl
    · simp only [hend]
      rfl
  · cases h

end BlockDocument
