import Mathlib.Tactic.SplitIfs
import BlockDocument.Files.Tree

/-!
# Writing a file

Writing a file changes what stands in one place, which was no directory before. All other places
hold what they held (`entry?_of_write`), and the path of the file leads to what was written
(`readText_of_write`): on its way to a file a path goes through directories only, and those are
still there.
-/

namespace BlockDocument.FileTree

variable {tree written : FileTree}

theorem entry?_put_self {place : List Text} (h : tree.Takes place) (entry : Entry) :
    FileTree.entry? (tree.put place entry h) place = some entry :=
  find?_putEntry_self h.ne_nil entry tree.entries

theorem entry?_put_of_ne {place other : List Text} (h : tree.Takes place) (hne : other ≠ place)
    (entry : Entry) : FileTree.entry? (tree.put place entry h) other = tree.entry? other :=
  find?_putEntry_of_ne hne entry tree.entries

/-- What can be written is a file in a place that takes one. -/
theorem write_eq_ok {path content : Text} (h : tree.write path content = .ok written) :
    ∃ place, ∃ htakes : tree.Takes place, tree.place path = .ok place
      ∧ Path.wantsDirectory path = false
      ∧ written = tree.put place (.file (.text content)) htakes := by
  unfold write at h
  split at h
  · cases h
  · rename_i place hplace
    split at h
    · cases h
    · rename_i hno
      exact ⟨place, takes_of_place hplace hno, hplace, Bool.eq_false_iff.2 (not_or.1 hno).1,
        (Except.ok.inj h).symm⟩

/-- Whether a file can be written does not depend on its text. -/
theorem write_congr {path content : Text} (h : tree.write path content = .ok written)
    (other : Text) : ∃ written', tree.write path other = .ok written' := by
  unfold write at h ⊢
  split at h
  · cases h
  · split at h
    · cases h
    · rename_i hno
      exact ⟨_, dif_neg hno⟩

/-- Writing a file leaves all other places as they are. -/
theorem entry?_of_write {path content : Text} (h : tree.write path content = .ok written)
    {place : List Text} (hplace : tree.place path ≠ .ok place) :
    written.entry? place = tree.entry? place := by
  obtain ⟨found, htakes, hfound, -, rfl⟩ := write_eq_ok h
  refine entry?_put_of_ne htakes (fun heq => hplace ?_) _
  rw [heq, hfound]

section put

variable {target : List Text} (htakes : tree.Takes target) (entry : Entry)

theorem step_put {place next : List Text} {component : Text}
    (h : tree.step place component = .ok next) :
    (tree.put target entry htakes).step place component = .ok next := by
  have hne : place ≠ target := fun heq => htakes.notDirectory (heq ▸ (step_cases h).1)
  unfold step at h ⊢
  rwa [entry?_put_of_ne htakes hne]

theorem walk_put : ∀ {components place next : List Text},
    tree.walk place components = .ok next →
      (tree.put target entry htakes).walk place components = .ok next
  | [], _, _, h => h
  | component :: components, _, _, h => by
    obtain ⟨mid, hs, hw⟩ := walk_cons.1 h
    exact walk_cons.2 ⟨mid, step_put htakes entry hs, walk_put hw⟩

theorem place_put {path : Text} {place : List Text} (h : tree.place path = .ok place) :
    (tree.put target entry htakes).place path = .ok place := by
  unfold FileTree.place at h ⊢
  split_ifs at h ⊢
  · exact walk_put htakes entry h
  · exact walk_put htakes entry h

end put

/-- What was written can be read under the same path. -/
theorem readText_of_write {path content : Text} (h : tree.write path content = .ok written) :
    written.readText path = .ok content := by
  obtain ⟨place, htakes, hplace, hpath, rfl⟩ := write_eq_ok h
  have hfind : (tree.put place (.file (.text content)) htakes).find path
      = .ok (place, .file (.text content)) := by
    rw [find, place_put htakes _ hplace]
    simp only [entry?_put_self, hpath, Bool.false_eq_true, ↓reduceIte]
  rw [readText, hfind]

end BlockDocument.FileTree
