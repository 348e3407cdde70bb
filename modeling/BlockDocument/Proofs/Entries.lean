import Mathlib.Data.List.Find
import Mathlib.Data.List.Forall2
import Mathlib.Data.List.Induction
import Mathlib.Data.List.Pairwise
import Mathlib.Data.List.Perm.Basic
import BlockDocument.Dictionary

/-!
# Entries of dictionaries

A dictionary is known by the entries in it, since their order is fixed. So the order in which
entries with different keys are put in does not matter (`ofList_perm`), and taking out a key is
the same before and after (`erase_ofList`). Looking up a key finds the one entry under it
(`get?_eq_some_iff`).
-/

namespace BlockDocument.Dictionary

variable {α β : Type}

theorem eq_of_mem {d e : Dictionary α} (h : ∀ x, x ∈ d.entries ↔ x ∈ e.entries) : d = e := by
  have hnodup : ∀ f : Dictionary α, f.entries.Nodup := fun f =>
    List.Pairwise.imp (fun {a b} hlt heq => by
      subst heq
      exact List.lt_irrefl _ hlt) f.ascending
  have hperm := (List.perm_ext_iff_of_nodup (hnodup d) (hnodup e)).2 h
  have hentries : d.entries = e.entries :=
    hperm.eq_of_pairwise (fun a b _ _ hab hba => absurd (List.lt_trans hab hba) (List.lt_irrefl _))
      d.ascending e.ascending
  cases d
  cases e
  cases hentries
  rfl

theorem mem_insertEntry_iff {key : Text} {value : α} {x : Text × α} :
    ∀ {es : List (Text × α)}, es.Pairwise (fun a b => a.1 < b.1) →
      (x ∈ insertEntry key value es ↔ x = (key, value) ∨ x ∈ es ∧ x.1 ≠ key)
  | [], _ => by simp [insertEntry]
  | e :: es, h => by
    obtain ⟨he, hes⟩ := List.pairwise_cons.1 h
    have hne : ∀ y ∈ es, y.1 ≠ e.1 := fun y hy heq => List.lt_irrefl _ (heq ▸ he y hy)
    simp only [insertEntry]
    split_ifs with hlt heq
    · have hmem : x ∈ e :: es → x.1 ≠ key := by
        rintro hx rfl
        rcases List.mem_cons.1 hx with rfl | hx
        · exact List.lt_irrefl _ hlt
        · exact List.lt_irrefl _ (List.lt_trans hlt (he x hx))
      rw [List.mem_cons, and_iff_left_of_imp hmem]
    · subst heq
      have hmem : x ∈ e :: es ∧ x.1 ≠ e.1 ↔ x ∈ es := by
        constructor
        · rintro ⟨hx, hx'⟩
          exact (List.mem_cons.1 hx).resolve_left fun h => hx' (congrArg Prod.fst h)
        · exact fun hx => ⟨.tail _ hx, hne x hx⟩
      rw [List.mem_cons, hmem]
    · have hself : x = e → x.1 ≠ key := by
        rintro rfl
        exact fun h => heq h.symm
      rw [List.mem_cons, mem_insertEntry_iff hes, List.mem_cons, or_and_right,
        and_iff_left_of_imp hself, or_left_comm]

theorem mem_insert {d : Dictionary α} {key : Text} {value : α} {x : Text × α} :
    x ∈ (d.insert key value).entries ↔ x = (key, value) ∨ x ∈ d.entries ∧ x.1 ≠ key :=
  mem_insertEntry_iff d.ascending

theorem mem_erase {d : Dictionary α} {key : Text} {x : Text × α} :
    x ∈ (d.erase key).entries ↔ x ∈ d.entries ∧ x.1 ≠ key := by
  rw [erase, List.mem_filter, decide_eq_true_eq]

theorem ofList_concat (entries : List (Text × α)) (e : Text × α) :
    ofList (entries ++ [e]) = (ofList entries).insert e.1 e.2 := by
  rw [ofList, List.foldl_append]
  rfl

theorem erase_insert (d : Dictionary α) (key key' : Text) (value : α) :
    (d.insert key' value).erase key
      = if key' = key then d.erase key else (d.erase key).insert key' value := by
  refine eq_of_mem fun x => ?_
  split_ifs with h
  · subst h
    rw [mem_erase, mem_insert, mem_erase]
    exact ⟨fun ⟨hx, hne⟩ => ⟨(hx.resolve_left fun h => hne (by rw [h])).1, hne⟩,
      fun hx => ⟨.inr hx, hx.2⟩⟩
  · rw [mem_erase, mem_insert, mem_insert, mem_erase, or_and_right, and_right_comm,
      and_iff_left_of_imp (b := x.1 ≠ key)]
    rintro rfl
    exact h

theorem erase_ofList (entries : List (Text × α)) (key : Text) :
    (ofList entries).erase key = ofList (entries.filter fun e => e.1 ≠ key) := by
  induction entries using List.reverseRecOn with
  | nil => rfl
  | append_singleton entries e ih =>
    rw [ofList_concat, erase_insert, ih, List.filter_append]
    split_ifs with h
    · rw [List.filter_cons_of_neg (by simpa using h), List.filter_nil, List.append_nil]
    · rw [List.filter_cons_of_pos (by simpa using h), List.filter_nil, ofList_concat]

theorem mem_ofList {entries : List (Text × α)} (h : (entries.map (·.1)).Nodup) {x : Text × α} :
    x ∈ (ofList entries).entries ↔ x ∈ entries := by
  induction entries using List.reverseRecOn with
  | nil => exact Iff.rfl
  | append_singleton entries e ih =>
    rw [List.map_append, List.nodup_append] at h
    have hne : x ∈ entries → x.1 ≠ e.1 := fun hx =>
      h.2.2 _ (List.mem_map_of_mem hx) _ (List.mem_singleton_self _)
    rw [ofList_concat, mem_insert, ih h.1, and_iff_left_of_imp hne, List.mem_append,
      List.mem_singleton, or_comm]

/-- The order in which entries with different keys are put in does not matter. -/
theorem ofList_perm {entries entries' : List (Text × α)} (h : entries.Perm entries')
    (hnodup : (entries.map (·.1)).Nodup) : ofList entries = ofList entries' := by
  have hnodup' : (entries'.map (·.1)).Nodup := (h.map _).nodup_iff.1 hnodup
  exact eq_of_mem fun x => by rw [mem_ofList hnodup, mem_ofList hnodup', h.mem_iff]

/-! ## Looking up keys -/

theorem key_ne_of_lt {a b : Text × α} (h : a.1 < b.1) : a.1 ≠ b.1 := fun heq =>
  List.lt_irrefl _ (heq ▸ h)

theorem eq_of_key {d : Dictionary α} {a b : Text × α} (ha : a ∈ d.entries) (hb : b ∈ d.entries)
    (h : a.1 = b.1) : a = b := by
  have hkeys : d.entries.Pairwise fun a b => a.1 = b.1 → a = b :=
    d.ascending.imp fun h heq => absurd heq (key_ne_of_lt h)
  have hflip : d.entries.Pairwise fun a b => b.1 = a.1 → b = a :=
    d.ascending.imp fun h heq => absurd heq.symm (key_ne_of_lt h)
  exact List.Pairwise.forall_of_forall_of_flip (fun _ _ _ => rfl) hkeys hflip ha hb h

theorem get?_eq_some_iff {d : Dictionary α} {key : Text} {value : α} :
    d.get? key = some value ↔ (key, value) ∈ d.entries := by
  rw [get?, Option.map_eq_some_iff]
  constructor
  · rintro ⟨e, he, rfl⟩
    have hkey := List.find?_some he
    rw [← of_decide_eq_true hkey]
    exact List.mem_of_find?_eq_some he
  · intro h
    have hfound : (d.entries.find? fun e => e.1 = key).isSome = true :=
      List.find?_isSome.2 ⟨_, h, decide_eq_true rfl⟩
    obtain ⟨e, he⟩ := Option.isSome_iff_exists.1 hfound
    have hkey := List.find?_some he
    cases eq_of_key (List.mem_of_find?_eq_some he) h (of_decide_eq_true hkey)
    exact ⟨_, he, rfl⟩

theorem get?_eq_none_iff {d : Dictionary α} {key : Text} :
    d.get? key = none ↔ ∀ value, (key, value) ∉ d.entries := by
  simp only [Option.eq_none_iff_forall_ne_some, ne_eq, get?_eq_some_iff]

theorem mem_keys_iff {d : Dictionary α} {key : Text} :
    key ∈ d.keys ↔ (d.get? key).isSome = true := by
  rw [Option.isSome_iff_exists, keys, List.mem_map]
  simp only [get?_eq_some_iff, Prod.exists, exists_and_right, exists_eq_right]

theorem get?_insert (d : Dictionary α) (key : Text) (value : α) (key' : Text) :
    (d.insert key value).get? key' = if key' = key then some value else d.get? key' := by
  refine Option.ext fun a => ?_
  rw [get?_eq_some_iff, mem_insert]
  split_ifs with h
  · simp [h, eq_comm]
  · simp [h, get?_eq_some_iff]

theorem get?_erase (d : Dictionary α) (key key' : Text) :
    (d.erase key).get? key' = if key' = key then none else d.get? key' := by
  refine Option.ext fun a => ?_
  rw [get?_eq_some_iff, mem_erase]
  split_ifs with h
  · simp [h]
  · simp [h, get?_eq_some_iff]

/-- Of several values for a key the last one counts. -/
theorem get?_ofList (entries : List (Text × α)) (key : Text) :
    (ofList entries).get? key = (entries.reverse.find? fun e => e.1 = key).map (·.2) := by
  induction entries using List.reverseRecOn with
  | nil => rfl
  | append_singleton entries e ih =>
    rw [ofList_concat, get?_insert, ih, List.reverse_append, List.reverse_singleton,
      List.singleton_append, List.find?_cons]
    by_cases h : e.1 = key
    · simp [h]
    · simp [h, Ne.symm h]

/-! ## Entries that are related one by one -/

/-- That entries have the same key and values that are related. -/
def EntryRel (R : Text → α → β → Prop) (a : Text × α) (b : Text × β) : Prop :=
  a.1 = b.1 ∧ R a.1 a.2 b.2

theorem forall₂_insertEntry {R : Text → α → β → Prop} {key : Text} {a : α} {b : β}
    (hab : R key a b) {es : List (Text × α)} {fs : List (Text × β)}
    (h : List.Forall₂ (EntryRel R) es fs) :
    List.Forall₂ (EntryRel R) (insertEntry key a es) (insertEntry key b fs) := by
  induction h with
  | nil => exact .cons ⟨rfl, hab⟩ .nil
  | @cons e f es fs hef h ih =>
    simp only [insertEntry, ← hef.1]
    split_ifs
    · exact .cons ⟨rfl, hab⟩ (.cons hef h)
    · exact .cons ⟨rfl, hab⟩ h
    · exact .cons hef ih

theorem forall₂_ofList {R : Text → α → β → Prop} {es : List (Text × α)} {fs : List (Text × β)}
    (h : List.Forall₂ (EntryRel R) es fs) :
    List.Forall₂ (EntryRel R) (ofList es).entries (ofList fs).entries := by
  suffices ∀ (d : Dictionary α) (e : Dictionary β), List.Forall₂ (EntryRel R) d.entries e.entries →
      List.Forall₂ (EntryRel R) (es.foldl (fun d e => d.insert e.1 e.2) d).entries
        (fs.foldl (fun d e => d.insert e.1 e.2) e).entries from this empty empty .nil
  induction h with
  | nil => exact fun _ _ hde => hde
  | @cons e f _ _ hef _ ih =>
    intro d d' hd
    obtain ⟨key, a⟩ := e
    obtain ⟨key', b⟩ := f
    obtain ⟨rfl, hab⟩ := hef
    exact ih _ _ (forall₂_insertEntry hab hd)

end BlockDocument.Dictionary
