import BlockDocument.Dictionary

/-!
# Extra arguments

An extra argument names a setting: `--extra-theme retro`. It may stand anywhere on the command
line, and is taken out before the other arguments are looked at. The argument behind it is its
value, unless that begins with a dash; an extra without a value has the value `true`.
-/

namespace BlockDocument.Command

/-- What the name of an extra argument's setting stands behind. -/
def extraMarks : List Text := ["--extra-", "--extras-"].map String.toList

/-- The name of the setting that an argument is an extra for. -/
def extraName? (argument : Text) : Option Text :=
  extraMarks.findSome? fun mark => Text.afterStart? mark argument

/-- Whether an argument begins with a dash. -/
def isDashed (argument : Text) : Bool := argument.head? = some '-'

/-- The value of an extra that is given none. -/
def defaultExtra : Text := "true".toList

/-- Arguments without the extras among them, and the extras in order. -/
structure Split where
  plain : List Text := []
  extras : List (Text × Text) := []
  deriving DecidableEq, Repr

namespace Split

/-- Puts an argument in front of the plain ones. -/
def addPlain (s : Split) (argument : Text) : Split := { s with plain := argument :: s.plain }

/-- Puts an extra in front of the others. -/
def addExtra (s : Split) (name value : Text) : Split :=
  { s with extras := (name, value) :: s.extras }

/-- Takes the extras out of some arguments. -/
def ofArguments : List Text → Split
  | [] => {}
  | argument :: rest =>
    match extraName? argument with
    | none => (ofArguments rest).addPlain argument
    | some name =>
      match rest with
      | [] => addExtra {} name defaultExtra
      | next :: behind =>
        if isDashed next then (ofArguments (next :: behind)).addExtra name defaultExtra
        else (ofArguments behind).addExtra name next

/-- The extras under their names. Of several for one setting the last one counts. -/
def dictionary (s : Split) : Dictionary Text := .ofList s.extras

end Split

end BlockDocument.Command
