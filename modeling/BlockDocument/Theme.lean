import BlockDocument.Text.Blank

/-!
# Themes

A theme is a small set of colours and fonts laid over one stylesheet. Looking up a theme by name
always gives one: a name that is not known stands for the default theme.
-/

namespace BlockDocument

/-- The themes of a preview. -/
inductive Theme
  | default | minimal | corporate | academic | creative | technical | retro | modern | elegant
  | bold
  deriving DecidableEq, Repr, Inhabited

namespace Theme

/-- Every theme, in the order in which they are listed. -/
def all : List Theme :=
  [default, minimal, corporate, academic, creative, technical, retro, modern, elegant, bold]

/-- The name of a theme. -/
def name : Theme → Text
  | default => "default".toList
  | minimal => "minimal".toList
  | corporate => "corporate".toList
  | academic => "academic".toList
  | creative => "creative".toList
  | technical => "technical".toList
  | retro => "retro".toList
  | modern => "modern".toList
  | elegant => "elegant".toList
  | bold => "bold".toList

/-- Finds a theme by name, whatever the case of its ASCII letters and the blanks around it. -/
def ofName (given : Text) : Theme :=
  (all.find? fun theme => theme.name = given.trim.asciiLower).getD default

/-- The class that a page carries to choose its theme. -/
def bodyClass (theme : Theme) : Text := "osf-theme-".toList ++ theme.name

/-- A family of fonts. -/
inductive Font
  | sans | serif | mono
  deriving DecidableEq, Repr

/-- A family of fonts as a stylesheet names it. -/
def Font.families : Font → Text
  | .sans =>
    "-apple-system, BlinkMacSystemFont, \"Segoe UI\", Helvetica, Arial, sans-serif".toList
  | .serif => "Georgia, \"Times New Roman\", serif".toList
  | .mono => "\"SFMono-Regular\", Consolas, \"Liberation Mono\", monospace".toList

/-- The accent colour of a theme. -/
def accent : Theme → Text
  | default => "#0066cc".toList
  | minimal => "#333333".toList
  | corporate => "#1f3a5f".toList
  | academic => "#7a1f1f".toList
  | creative => "#d6336c".toList
  | technical => "#2b8a3e".toList
  | retro => "#b35c00".toList
  | modern => "#5f3dc4".toList
  | elegant => "#5c4b37".toList
  | bold => "#e03131".toList

/-- The fonts of a theme. -/
def font : Theme → Font
  | academic | elegant => .serif
  | technical | retro => .mono
  | _ => .sans

end Theme

end BlockDocument
