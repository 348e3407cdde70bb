import BlockDocument.Config.Settings
import BlockDocument.Dictionary

/-!
# Settings given as extras

Extras change settings that have been loaded. A setting may have several names, of which the
first that is given counts; the others are left over, and so is every extra that names no setting.
-/

namespace BlockDocument.Command

/-- An extra with a value that its setting cannot have. -/
inductive ExtraFault
  | notBoolean (name value : Text)
  | notCount (name value : Text)
  deriving DecidableEq, Repr

/-- In words, why an extra cannot be used. -/
def ExtraFault.message : ExtraFault → Text
  | notBoolean name value =>
    "Invalid boolean value '".toList ++ value ++ "' for --extra-".toList ++ name
  | notCount name value => "Invalid number '".toList ++ value ++ "' for --extra-".toList ++ name

/-- The words for true, in lower case. -/
def yesWords : List Text := ["true", "1", "yes", "y"].map String.toList

/-- The words for false, in lower case. -/
def noWords : List Text := ["false", "0", "no", "n"].map String.toList

/-- Reads a truth value, whatever its case. -/
def readBool (name value : Text) : Except ExtraFault Bool :=
  if yesWords.contains value.toLower then .ok true
  else if noWords.contains value.toLower then .ok false
  else .error (.notBoolean name value.toLower)

/-- Reads a count. -/
def readCount (name value : Text) : Except ExtraFault Nat :=
  match value.readCount? with
  | some n => .ok n
  | none => .error (.notCount name value)

/-- The two ways of naming a tab. -/
def tabNames : List Text := ["tab", "\\t"].map String.toList

/-- The indent that a text stands for: a tab by name, a number of spaces, or the text itself. -/
def indentOf (value : Text) : Text :=
  if tabNames.contains value then ['\t']
  else
    match value.readCount? with
    | some width => List.replicate width ' '
    | none => value

/-- The settings that extras can change. -/
inductive Adjustable
  | theme | policySource | resolveIncludes | maxRows | maxColumns | indent | maxBlankLines
  | warnUnknownBlocks
  deriving DecidableEq, Repr

namespace Adjustable

/-- All of them, in the order in which their extras are looked for. -/
def all : List Adjustable :=
  [theme, policySource, resolveIncludes, maxRows, maxColumns, indent, maxBlankLines,
    warnUnknownBlocks]

/-- The first name of a setting. -/
def name : Adjustable → Text
  | theme => "theme".toList
  | policySource => "csp-source".toList
  | resolveIncludes => "resolve-includes".toList
  | maxRows => "max-rows".toList
  | maxColumns => "max-cols".toList
  | indent => "indent".toList
  | maxBlankLines => "max-blank-lines".toList
  | warnUnknownBlocks => "warn-unknown-blocks".toList

/-- The other name of a setting, if it has one. -/
def otherName? : Adjustable → Option Text
  | policySource => some "csp".toList
  | resolveIncludes => some "includes".toList
  | indent => some "indent-string".toList
  | maxBlankLines => some "blank-lines".toList
  | _ => none

/-- The names of a setting. -/
def names (a : Adjustable) : List Text := a.name :: a.otherName?.toList

/-- Gives a setting the value that an extra has. -/
def assign (a : Adjustable) (value : Text) (s : Settings) : Except ExtraFault Settings :=
  match a with
  | theme => .ok { s with preview := { s.preview with theme := value } }
  | policySource => .ok { s with preview := { s.preview with policySource := value } }
  | resolveIncludes =>
    (readBool a.name value).map fun b =>
      { s with preview := { s.preview with resolveIncludes := b } }
  | maxRows =>
    (readCount a.name value).map fun n =>
      { s with preview := { s.preview with limits := { s.preview.limits with maxRows := n } } }
  | maxColumns =>
    (readCount a.name value).map fun n =>
      { s with preview := { s.preview with limits := { s.preview.limits with maxColumns := n } } }
  | indent => .ok { s with layout := { s.layout with indent := indentOf value } }
  | maxBlankLines =>
    (readCount a.name value).map fun n => { s with layout := { s.layout with maxBlankLines := n } }
  | warnUnknownBlocks =>
    (readBool a.name value).map fun b => { s with check := { s.check with warnUnknownBlocks := b } }

end Adjustable

/-- The first of some names that is given, with its value. -/
def firstGiven? (extras : Dictionary Text) : List Text → Option (Text × Text)
  | [] => none
  | name :: names =>
    match extras.get? name with
    | some value => some (name, value)
    | none => firstGiven? extras names

/-- Settings with the extras that have not been used. -/
structure Adjusted where
  settings : Settings
  unused : Dictionary Text

/-- Looks for the extra of a setting. -/
def adjust (s : Adjusted) (a : Adjustable) : Except ExtraFault Adjusted :=
  match firstGiven? s.unused a.names with
  | none => .ok s
  | some (name, value) =>
    match a.assign value s.settings with
    | .error e => .error e
    | .ok settings => .ok ⟨settings, s.unused.erase name⟩

/-- Looks for the extras of several settings, one after the other. -/
def adjustEach : Adjusted → List Adjustable → Except ExtraFault Adjusted
  | s, [] => .ok s
  | s, a :: rest =>
    match adjust s a with
    | .error e => .error e
    | .ok s => adjustEach s rest

/-- Changes settings by extras. -/
def applyExtras (settings : Settings) (extras : Dictionary Text) : Except ExtraFault Adjusted :=
  adjustEach ⟨settings, extras⟩ Adjustable.all

end BlockDocument.Command
