import BlockDocument.Config.KeyPath
import BlockDocument.Html.Page
import BlockDocument.Source.Check
import BlockDocument.Source.Format

/-!
# The settings of a program

Settings are read from a tree. Every one of them has to be there, and what else is there is passed
over. A setting need not have been written in the form it is used in: numbers and truth values
serve as text, text as a number or a truth value if it reads as one, and a section may be an array
that gives its settings in order.
-/

namespace BlockDocument

/-- Why there are no settings to be had. -/
inductive ConfigFault
  /-- A key path is not well-formed. -/
  | invalidPath (path : Text)
  /-- A file that has to be there cannot be read. -/
  | missingFile (path : Text)
  /-- A file is not well-formed. -/
  | malformedFile (path : Text)
  /-- A setting cannot be used. -/
  | unusable (name : Text)
  /-- A section is no section, or lacks a setting. -/
  | incomplete (name : Text)
  deriving DecidableEq, Repr

/-- Settings, unless there are none to be had. -/
abbrev Configured (α : Type) := Except ConfigFault α

/-- The settings of a preview. -/
structure PreviewSettings where
  theme : Text := "default".toList
  resolveIncludes : Bool := true
  policySource : Text := []
  limits : Html.SheetLimits := {}
  deriving DecidableEq, Repr

/-- All settings. -/
structure Settings where
  preview : PreviewSettings := {}
  layout : Source.Layout := {}
  check : Source.CheckOptions := {}
  deriving DecidableEq, Repr

/-- The options of a page. A policy is embedded only for a nonce. -/
def Settings.pageOptions (s : Settings) (nonce : Option Text) : Html.PageOptions where
  theme := .ofName s.preview.theme
  policy := nonce.map fun nonce => ⟨nonce, s.preview.policySource⟩
  limits := s.preview.limits

namespace Setting

/-- A setting used as text. -/
def toText? : Setting → Option Text
  | text t => some t
  | bool true => some "true".toList
  | bool false => some "false".toList
  | integer n => some (Text.ofInt n)
  | real x => some x.display
  | nil | array _ | table _ => none

/-- The words for true, in lower case. -/
def affirmative : List Text := ["true", "on", "yes"].map String.toList

/-- The words for false, in lower case. -/
def negative : List Text := ["false", "off", "no"].map String.toList

/-- A setting used as a truth value. Numbers other than zero are true. -/
def toBool? : Setting → Option Bool
  | bool b => some b
  | integer n => some (n ≠ 0)
  | real x => some (!x.isZero)
  | text t =>
    if affirmative.contains t.toLower || t = ['1'] then some true
    else if negative.contains t.toLower || t = ['0'] then some false
    else none
  | nil | array _ | table _ => none

/-- A setting used as a count. -/
def toCount? : Setting → Option Nat
  | integer (.ofNat n) => some n
  | integer (.negSucc _) => none
  | bool b => some b.toNat
  | real x => some (x.toCount Text.countBound)
  | text t =>
    if affirmative.contains t.toLower then some 1
    else if negative.contains t.toLower then some 0
    else t.readCount?
  | nil | array _ | table _ => none

/-- What a section holds for a setting: a table under its name, an array at its place. -/
def field? (s : Setting) (name : Text) (place : Nat) : Option Setting :=
  match s with
  | table members => lookup name members
  | array items => items[place]?
  | _ => none

variable {α : Type}

/-- Reads what a section holds for a setting, if it holds anything. -/
def readField (read : Setting → Configured α) (s : Setting) (name : Text) (place : Nat) :
    Configured (Option α) :=
  match s.field? name place with
  | none => .ok none
  | some v => (read v).map some

/-- Uses what a section holds for a setting, if it holds anything. -/
def useField (use? : Setting → Option α) (s : Setting) (name : Text) (place : Nat) :
    Configured (Option α) :=
  s.readField (fun v => (use? v).elim (.error (.unusable name)) .ok) name place

end Setting

/-- Insists on what a section should hold. -/
def insist {α : Type} (name : Text) : Option α → Configured α
  | some a => .ok a
  | none => .error (.incomplete name)

/-- Reads the limits of sheets. -/
def Html.SheetLimits.ofSetting (s : Setting) : Configured Html.SheetLimits := do
  let rows ← s.useField Setting.toCount? "max_rows".toList 0
  let columns ← s.useField Setting.toCount? "max_cols".toList 1
  insist "sheet".toList (do return ⟨← rows, ← columns⟩)

/-- Reads the settings of a preview. -/
def PreviewSettings.ofSetting (s : Setting) : Configured PreviewSettings := do
  let theme ← s.useField Setting.toText? "theme".toList 0
  let resolve ← s.useField Setting.toBool? "resolve_includes".toList 1
  let policySource ← s.useField Setting.toText? "csp_source".toList 2
  let limits ← s.readField Html.SheetLimits.ofSetting "sheet".toList 3
  insist "preview".toList (do return ⟨← theme, ← resolve, ← policySource, ← limits⟩)

/-- Reads the layout of source text. -/
def Source.Layout.ofSetting (s : Setting) : Configured Source.Layout := do
  let indent ← s.useField Setting.toText? "indent_string".toList 0
  let blank ← s.useField Setting.toCount? "max_blank_lines".toList 1
  insist "format".toList (do return ⟨← indent, ← blank⟩)

/-- Reads the options of a check. -/
def Source.CheckOptions.ofSetting (s : Setting) : Configured Source.CheckOptions := do
  let warn ← s.useField Setting.toBool? "warn_unknown_blocks".toList 0
  insist "check".toList (warn.map .mk)

namespace Settings

/-- Reads all settings. -/
def ofSetting (s : Setting) : Configured Settings := do
  let preview ← s.readField PreviewSettings.ofSetting "preview".toList 0
  let layout ← s.readField Source.Layout.ofSetting "format".toList 1
  let check ← s.readField Source.CheckOptions.ofSetting "check".toList 2
  insist [] (do return ⟨← preview, ← layout, ← check⟩)

/-- The tree that settings are read from. -/
def setting (s : Settings) : Setting :=
  .table [
    ("preview".toList, .table [
      ("theme".toList, .text s.preview.theme),
      ("resolve_includes".toList, .bool s.preview.resolveIncludes),
      ("csp_source".toList, .text s.preview.policySource),
      ("sheet".toList, .table [
        ("max_rows".toList, .integer s.preview.limits.maxRows),
        ("max_cols".toList, .integer s.preview.limits.maxColumns)])]),
    ("format".toList, .table [
      ("indent_string".toList, .text s.layout.indent),
      ("max_blank_lines".toList, .integer s.layout.maxBlankLines)]),
    ("check".toList, .table [
      ("warn_unknown_blocks".toList, .bool s.check.warnUnknownBlocks)])]

end Settings

end BlockDocument
