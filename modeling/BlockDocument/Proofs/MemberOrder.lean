import BlockDocument.Proofs.DocumentValues
import BlockDocument.Proofs.Entries

/-!
# The order of members

Before a block is decoded the members of all its objects are sorted, so values that differ in the
order of members only are the same by then (`Reordered.sorted_eq`). The root object is not sorted,
but of its members only `blocks` counts.
-/

namespace BlockDocument

namespace Json

theorem sortedItems_eq_map : ∀ vs : List Json, sortedItems vs = vs.map sorted
  | [] => rfl
  | v :: vs => by rw [sortedItems, sortedItems_eq_map vs, List.map_cons]

theorem sortedMembers_eq_map : ∀ ms : List (Text × Json),
    sortedMembers ms = ms.map fun m => (m.1, m.2.sorted)
  | [] => rfl
  | (key, v) :: ms => by rw [sortedMembers, sortedMembers_eq_map ms, List.map_cons]

/-- The members of an object, sorted by key. -/
def membersByKey (ms : List (Text × Json)) : Dictionary Json := .ofList (sortedMembers ms)

theorem sorted_array (items : List Json) : (array items).sorted = array (items.map sorted) := by
  rw [sorted, sortedItems_eq_map]

theorem sorted_object (ms : List (Text × Json)) :
    (object ms).sorted = object (membersByKey ms).entries := by
  rw [sorted, membersByKey]

theorem sorted_of_isScalar {v : Json} (h : v.isScalar = true) : v.sorted = v := by
  cases v <;> first | (cases h; done) | simp only [sorted]

/-- One object of a value, with distinct keys, has its members in another order. -/
inductive Reordered : Json → Json → Prop
  | members {ms ms' : List (Text × Json)} (hnodup : (ms.map (·.1)).Nodup) (hperm : ms.Perm ms') :
      Reordered (.object ms) (.object ms')
  | inItem {v v' : Json} (before after : List Json) (h : Reordered v v') :
      Reordered (.array (before ++ v :: after)) (.array (before ++ v' :: after))
  | inMember {v v' : Json} (key : Text) (before after : List (Text × Json))
      (h : Reordered v v') :
      Reordered (.object (before ++ (key, v) :: after)) (.object (before ++ (key, v') :: after))

theorem membersByKey_perm {ms ms' : List (Text × Json)} (hnodup : (ms.map (·.1)).Nodup)
    (hperm : ms.Perm ms') : membersByKey ms = membersByKey ms' := by
  rw [membersByKey, membersByKey, sortedMembers_eq_map, sortedMembers_eq_map]
  refine Dictionary.ofList_perm (hperm.map _) ?_
  rwa [List.map_map]

theorem Reordered.sorted_eq {v v' : Json} (h : Reordered v v') : v.sorted = v'.sorted := by
  induction h with
  | members hnodup hperm => rw [sorted_object, sorted_object, membersByKey_perm hnodup hperm]
  | inItem before after _ ih =>
    simp only [sorted_array, List.map_append, List.map_cons, ih]
  | inMember key before after _ ih =>
    simp only [sorted_object, membersByKey, sortedMembers_eq_map, List.map_append,
      List.map_cons, ih]

end Json

namespace Decode

open Json (Reordered)

variable {α β : Type}

theorem mapM_middle (f : α → Option β) {a a' : α} (h : f a = f a') (before after : List α) :
    (before ++ a :: after).mapM f = (before ++ a' :: after).mapM f := by
  simp only [List.mapM_append, List.mapM_cons, h]

theorem block_object (ms : List (Text × Json)) :
    block (.object ms) = blockOfMembers (Json.membersByKey ms) := rfl

theorem block_eq_error : ∀ v : Json,
    (∃ ms, v = .object ms) ∨ block v = .error .missingType ∧ ∀ es, v.sorted ≠ .object es
  | .object ms => .inl ⟨ms, rfl⟩
  | .array items => .inr ⟨rfl, by simp [Json.sorted]⟩
  | .null | .bool _ | .integer _ | .real _ | .text _ => .inr ⟨rfl, by simp [Json.sorted]⟩

theorem block_congr {v v' : Json} (h : v.sorted = v'.sorted) : block v = block v' := by
  obtain ⟨ms, rfl⟩ | ⟨hv, hne⟩ := block_eq_error v <;>
    obtain ⟨ms', rfl⟩ | ⟨hv', hne'⟩ := block_eq_error v'
  · rw [Json.sorted_object, Json.sorted_object, Json.object.injEq] at h
    have hmembers : Json.membersByKey ms = Json.membersByKey ms' :=
      Dictionary.eq_of_mem fun x => by rw [h]
    rw [block_object, block_object, hmembers]
  · exact absurd (h.symm.trans (Json.sorted_object ms)) (hne' _)
  · exact absurd (h.trans (Json.sorted_object ms')) (hne _)
  · rw [hv, hv']

theorem list_block_of_reordered {v v' : Json} (h : Reordered v v') :
    (list block v).toOption = (list block v').toOption := by
  cases h with
  | members => rfl
  | inMember => rfl
  | inItem before after h =>
    simp only [list, toOption_each]
    exact mapM_middle _ (by rw [block_congr h.sorted_eq]) before after

/-- If the keys are distinct, there are no two members under a key to change places. -/
theorem filter_eq_of_perm {ms ms' : List (Text × Json)} (hnodup : (ms.map (·.1)).Nodup)
    (hperm : ms.Perm ms') (key : Text) :
    (ms.filter fun m => m.1 = key) = ms'.filter fun m => m.1 = key := by
  have hone : ∀ l : List (Text × Json), (l.map (·.1)).Nodup →
      (l.filter fun m => m.1 = key).Pairwise fun _ _ => False := fun l hl =>
    ((List.pairwise_map.1 hl).filter _).imp_of_mem fun {a b} ha hb hne => by
      rw [List.mem_filter, decide_eq_true_eq] at ha hb
      exact hne (ha.2.trans hb.2.symm)
  exact (hperm.filter _).eq_of_pairwise (fun _ _ _ _ h => h.elim) (hone ms hnodup)
    (hone ms' ((hperm.map _).nodup_iff.1 hnodup))

theorem document?_array_middle {v v' : Json} (h : (block v).toOption = (block v').toOption)
    (before after : List Json) :
    document? (.array (before ++ v :: after)) = document? (.array (before ++ v' :: after)) :=
  congrArg (Option.map _) (mapM_middle (fun v => (block v).toOption) h before after)

theorem document?_object_middle {v v' : Json}
    (h : (list block v).toOption = (list block v').toOption) (key : Text)
    (before after : List (Text × Json)) :
    document? (.object (before ++ (key, v) :: after))
      = document? (.object (before ++ (key, v') :: after)) := by
  simp only [document?, List.filter_append, List.filter_cons]
  split
  · exact congrArg (Option.map _)
      (mapM_middle (fun m : Text × Json => (list block m.2).toOption) (by exact h) _ _)
  · rfl

theorem document?_of_reordered {v v' : Json} (h : Reordered v v') : document? v = document? v' := by
  cases h with
  | members hnodup hperm => rw [document?, document?, filter_eq_of_perm hnodup hperm]
  | inItem before after h =>
    exact document?_array_middle (congrArg _ (block_congr h.sorted_eq)) before after
  | inMember key before after h =>
    exact document?_object_middle (list_block_of_reordered h) key before after

end Decode

end BlockDocument
