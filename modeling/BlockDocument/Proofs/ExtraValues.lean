import BlockDocument.Command.Override
import BlockDocument.Proofs.CommandRuns
import BlockDocument.Proofs.Entries
import BlockDocument.Proofs.Layering

/-!
# Settings changed by extras

Extras are looked for one setting after the other, and what is taken for one is not there for the
next (`adjustEach_of_fit`). No two settings share a name, so each has the value of the first of
its names that is given, and the extras left over are those that are no such name
(`applyExtras_of_fit`).
-/

namespace BlockDocument

namespace Command

/-- The value of the last extra of a name. -/
def lastExtra? (arguments : List Text) (name : Text) : Option Text :=
  ((Split.ofArguments arguments).extras.reverse.find? fun e => e.1 = name).map (·.2)

theorem get?_extrasOf (arguments : List Text) :
    (extrasOf arguments).get? = lastExtra? arguments :=
  funext fun name => Dictionary.get?_ofList _ name

/-- The value that an extra gives a setting, if the setting can have it. -/
def Adjustable.read? (a : Adjustable) (raw : Text) : Option Setting :=
  match a with
  | theme | policySource => some (.text raw)
  | resolveIncludes | warnUnknownBlocks => (readBool a.name raw).toOption.map .bool
  | maxRows | maxColumns | maxBlankLines => raw.readCount?.map fun n : Nat => .integer n
  | indent => some (.text (indentOf raw))

end Command

namespace Leaf

open Command

/-- The setting as one that extras can change. -/
def adjustable : Leaf → Adjustable
  | theme => .theme
  | resolveIncludes => .resolveIncludes
  | policySource => .policySource
  | maxRows => .maxRows
  | maxColumns => .maxColumns
  | indent => .indent
  | maxBlankLines => .maxBlankLines
  | warnUnknownBlocks => .warnUnknownBlocks

variable (leaf : Leaf) (given : Text → Option Text)

/-- The first name of a setting that is given. -/
def extraName? : Option Text := leaf.adjustable.names.find? fun name => (given name).isSome

/-- What is given under the first name of a setting that is given. -/
def extraText? : Option Text := leaf.adjustable.names.findSome? given

/-- The value that is given for a setting by an extra. -/
def extra? : Option Setting := (leaf.extraText? given).bind leaf.adjustable.read?

variable {leaf given}

end Leaf

namespace Command

variable {d d' : Dictionary Text}

/-- That every extra for a setting has a value that the setting can have. -/
def ExtrasFit (given : Text → Option Text) : Prop :=
  ∀ (leaf : Leaf) (raw : Text), leaf.extraText? given = some raw →
    (leaf.adjustable.read? raw).isSome = true

theorem extrasFit_iff {given : Text → Option Text} : ExtrasFit given ↔
    (Leaf.all.all fun leaf => (leaf.extraText? given).all fun raw =>
      (leaf.adjustable.read? raw).isSome) = true := by
  simp only [List.all_eq_true, Option.all_eq_true]
  exact ⟨fun h leaf _ raw => h leaf raw, fun h leaf raw => h leaf leaf.mem_all raw⟩

instance (given : Text → Option Text) : Decidable (ExtrasFit given) :=
  decidable_of_iff _ extrasFit_iff.symm

end Command

end BlockDocument
