import BlockDocument.Text.Basic

/-!
# Dictionaries

A dictionary maps texts to values. Its entries stand in ascending order of their keys, compared
character by character, and no key occurs twice: the order is part of the type, since the order
in which entries are listed can be seen.
-/

namespace BlockDocument

/-- Values under texts, in ascending order of the texts. -/
structure Dictionary (α : Type) where
  entries : List (Text × α)
  ascending : entries.Pairwise (fun a b => a.1 < b.1)

namespace Dictionary

variable {α : Type}

instance [DecidableEq α] : DecidableEq (Dictionary α) := fun d e =>
  if h : d.entries = e.entries then .isTrue (by cases d; cases e; cases h; rfl)
  else .isFalse fun he => h (he ▸ rfl)

/-- The dictionary without entries. -/
def empty : Dictionary α := ⟨[], .nil⟩

instance : Inhabited (Dictionary α) := ⟨empty⟩

/-- The value under a key. -/
def get? (d : Dictionary α) (key : Text) : Option α :=
  (d.entries.find? fun e => e.1 = key).map (·.2)

/-- The keys in ascending order. -/
def keys (d : Dictionary α) : List Text := d.entries.map (·.1)

/-- Puts a value into ascending entries, in place of one under the same key. -/
def insertEntry (key : Text) (value : α) : List (Text × α) → List (Text × α)
  | [] => [(key, value)]
  | e :: es =>
    if key < e.1 then (key, value) :: e :: es
    else if key = e.1 then (key, value) :: es
    else e :: insertEntry key value es

theorem mem_insertEntry {key : Text} {value : α} {x : Text × α} :
    ∀ {es : List (Text × α)}, x ∈ insertEntry key value es → x = (key, value) ∨ x ∈ es
  | [], h => by simpa [insertEntry] using h
  | e :: es, h => by
    simp only [insertEntry] at h
    split at h
    · simpa using h
    · split at h
      · rcases List.mem_cons.1 h with h | h
        · exact .inl h
        · exact .inr (.tail _ h)
      · rcases List.mem_cons.1 h with h | h
        · exact .inr (h ▸ .head _)
        · exact (mem_insertEntry h).imp_right (.tail _)

theorem ascending_insertEntry (key : Text) (value : α) :
    ∀ {es : List (Text × α)}, es.Pairwise (fun a b => a.1 < b.1) →
      (insertEntry key value es).Pairwise (fun a b => a.1 < b.1)
  | [], _ => by simp [insertEntry]
  | e :: es, h => by
    have he := List.pairwise_cons.1 h
    simp only [insertEntry]
    split
    · rename_i hk
      refine List.pairwise_cons.2 ⟨fun x hx => ?_, h⟩
      rcases List.mem_cons.1 hx with rfl | hx
      · exact hk
      · exact List.lt_trans hk (he.1 x hx)
    · split
      · rename_i hk
        exact List.pairwise_cons.2 ⟨fun x hx => hk ▸ he.1 x hx, he.2⟩
      · rename_i hlt hne
        refine List.pairwise_cons.2 ⟨fun x hx => ?_, ascending_insertEntry key value he.2⟩
        rcases mem_insertEntry hx with rfl | hx
        · refine Decidable.byContradiction fun hn => hne ?_
          exact List.le_antisymm (List.not_lt.1 hn) (List.not_lt.1 hlt)
        · exact he.1 x hx

/-- Puts a value under a key, in place of the one that was there. -/
def insert (d : Dictionary α) (key : Text) (value : α) : Dictionary α :=
  ⟨insertEntry key value d.entries, ascending_insertEntry key value d.ascending⟩

/-- Takes a key out. -/
def erase (d : Dictionary α) (key : Text) : Dictionary α :=
  ⟨d.entries.filter fun e => e.1 ≠ key, d.ascending.filter _⟩

/-- The dictionary of the given entries; of two values under one key the later one stays. -/
def ofList (entries : List (Text × α)) : Dictionary α :=
  entries.foldl (fun d e => d.insert e.1 e.2) empty

end Dictionary

end BlockDocument
