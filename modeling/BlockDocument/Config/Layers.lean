import BlockDocument.Config.Settings
import BlockDocument.Files.Tree
import BlockDocument.Toml.Document

/-!
# Layers of settings

Settings come from the built-in ones, with the files laid over them in the order in which they
were added, and single overrides on top of all files. A file is looked for under its path and
then with `.toml` behind it. A file that is optional may be missing, but not malformed; a file that
holds no text counts as missing.
-/

namespace BlockDocument

/-- A file of settings. -/
structure SettingsFile where
  path : Text
  required : Bool
  deriving DecidableEq, Repr

/-- The layers over the built-in settings, in the order in which they were added. -/
structure Layers where
  files : List SettingsFile := []
  overrides : List (KeyPath × Setting) := []
  deriving Repr

/-- A path with `.toml` behind its last component, which keeps what looks like an extension. -/
def tomlPath (path : Text) : Text :=
  let backwards := Path.trimFromEnd path.reverse
  let component := backwards.takeWhile (· ≠ '/')
  if component.isEmpty || component = ['.'] || component = ['.', '.'] then path
  else backwards.reverse ++ ".toml".toList

/-- Where a file of settings is. -/
def FileTree.findSettings? (tree : FileTree) (path : Text) : Option Text :=
  [path, tomlPath path].find? tree.isFile

namespace SettingsFile

/-- The text of a file of settings, if there is a file and it holds text. -/
def text? (tree : FileTree) (f : SettingsFile) : Option Text :=
  (tree.findSettings? f.path).bind fun path => (tree.readText path).toOption

/-- Reads a file of settings. -/
def read (tree : FileTree) (f : SettingsFile) : Configured (List (Text × Setting)) :=
  match f.text? tree with
  | none => if f.required then .error (.missingFile f.path) else .ok []
  | some t =>
    match Toml.parse? t with
    | none => .error (.malformedFile f.path)
    | some members => .ok members

end SettingsFile

namespace Setting

/-- The path that the key of a file's outermost table stands for. A key that is not well-formed
as a path stands for itself. -/
def outerPath (key : Text) : KeyPath := (KeyPath.parse? key).getD ⟨key, []⟩

/-- Lays the outermost table of a file over a tree. -/
def overlayFile (s : Setting) (members : List (Text × Setting)) : Setting :=
  members.foldl (fun s m => s.put (outerPath m.1) m.2) s

end Setting

namespace Layers

/-- Adds a file that has to be there. -/
def addFile (l : Layers) (path : Text) : Layers := { l with files := l.files ++ [⟨path, true⟩] }

/-- Adds a file that may be missing. -/
def addOptionalFile (l : Layers) (path : Text) : Layers :=
  { l with files := l.files ++ [⟨path, false⟩] }

/-- Adds an override of the setting at a key path. -/
def addOverride (l : Layers) (key : Text) (value : Setting) : Configured Layers :=
  match KeyPath.parse? key with
  | none => .error (.invalidPath key)
  | some path => .ok { l with overrides := l.overrides ++ [(path, value)] }

/-- Lays files over a tree. -/
def overlayFiles (tree : FileTree) : Setting → List SettingsFile → Configured Setting
  | s, [] => .ok s
  | s, f :: fs =>
    match f.read tree with
    | .error e => .error e
    | .ok members => overlayFiles tree (s.overlayFile members) fs

/-- The tree that all layers make together. -/
def setting (tree : FileTree) (l : Layers) : Configured Setting :=
  (overlayFiles tree ({} : Settings).setting l.files).map fun s =>
    l.overrides.foldl (fun s o => s.put o.1 o.2) s

/-- The settings that all layers make together. -/
def settings (tree : FileTree) (l : Layers) : Configured Settings :=
  (l.setting tree).bind Settings.ofSetting

end Layers

end BlockDocument
