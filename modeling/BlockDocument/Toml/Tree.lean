import BlockDocument.Config.Setting

/-!
# Tables of a TOML document

A table is made by a header, by a header of a table inside it, or by a dotted key. How a table was
made decides what may be added to it: a header may complete only a table that headers have implied,
and dotted keys only one that dotted keys have made. Nothing is ever made twice.
-/

namespace BlockDocument.Toml

/-- How a table was made. -/
inductive Origin
  /-- By its own header, or as a whole. -/
  | declared
  /-- By the header of a table inside it. -/
  | implied
  /-- By a dotted key. -/
  | dotted
  deriving DecidableEq, Repr

/-- What stands under a key while a document is read. -/
inductive Node
  | value (value : Setting)
  | table (origin : Origin) (members : List (Text × Node))
  /-- The tables of an array, the last one first. -/
  | tables (latest : List (List (Text × Node)))

mutual

/-- What a node is as a setting. -/
def Node.setting : Node → Setting
  | .value v => v
  | .table _ members => .table (settings members)
  | .tables latest => .array (tableSettings latest).reverse

/-- What members are as settings. -/
def settings : List (Text × Node) → List (Text × Setting)
  | [] => []
  | (key, node) :: members => (key, node.setting) :: settings members

/-- What tables are as settings. -/
def tableSettings : List (List (Text × Node)) → List Setting
  | [] => []
  | members :: latest => .table (settings members) :: tableSettings latest

end

/-- Changes what stands under a key, unless the change is refused. -/
def alter? (key : Text) (change : Option Node → Option Node) :
    List (Text × Node) → Option (List (Text × Node))
  | [] => (change none).map fun node => [(key, node)]
  | (name, node) :: members =>
    if name = key then (change (some node)).map fun node => (name, node) :: members
    else (alter? key change members).map ((name, node) :: ·)

/-- Changes the members of the table that a path leads to, making tables on the way. `change` is
told how the table was made; `made` is how the new ones are. -/
def changeAt (made : Origin) (change : Origin → List (Text × Node) → Option (List (Text × Node))) :
    (origin : Origin) → (path : List Text) → List (Text × Node) → Option (List (Text × Node))
  | origin, [], members => change origin members
  | _, key :: path, members =>
    let enter : Option Node → Option Node
      | none => (changeAt made change made path []).map (.table made)
      | some (.value _) | some (.tables []) => none
      | some (.tables (members :: earlier)) =>
        (changeAt made change .declared path members).map fun ms => .tables (ms :: earlier)
      | some (.table origin members) =>
        if made = .dotted && origin = .declared then none
        else (changeAt made change origin path members).map (.table origin)
    alter? key enter members

/-- A key and its value, with the keys in front of its last dot. -/
structure Entry where
  path : List Text
  key : Text
  value : Setting

/-- Adds an entry to a table. -/
def addEntry (members : List (Text × Node)) (e : Entry) : Option (List (Text × Node)) :=
  let put : Option Node → Option Node
    | none => some (.value e.value)
    | some _ => none
  let change (origin : Origin) (members : List (Text × Node)) : Option (List (Text × Node)) :=
    if decide (origin = .dotted) == e.path.isEmpty then none else alter? e.key put members
  changeAt .dotted change .declared e.path members

/-- Adds entries to a table. -/
def addEntries : List (Text × Node) → List Entry → Option (List (Text × Node))
  | members, [] => some members
  | members, e :: es => (addEntry members e).bind fun members => addEntries members es

/-- The table that is written as a whole. -/
def wholeTable? (entries : List Entry) : Option Setting :=
  (addEntries [] entries).map fun members => .table (settings members)

/-- What a header makes: a table, or one more table of an array. -/
inductive HeaderKind
  | table | item
  deriving DecidableEq, Repr

/-- A header, with the entries below it. -/
structure Section where
  kind : HeaderKind
  path : List Text
  key : Text
  entries : List Entry

/-- Adds a section to the tables of a document. -/
def addSection (members : List (Text × Node)) (s : Section) : Option (List (Text × Node)) :=
  let put : Option Node → Option Node := fun node =>
    match s.kind, node with
    | .table, none => (addEntries [] s.entries).map (.table .declared)
    | .table, some (.table .implied inner) =>
      (addEntries inner s.entries).map (.table .declared)
    | .item, none => (addEntries [] s.entries).map fun ms => .tables [ms]
    | .item, some (.tables latest) => (addEntries [] s.entries).map fun ms => .tables (ms :: latest)
    | _, _ => none
  changeAt .implied (fun _ members => alter? s.key put members) .declared s.path members

/-- Adds sections to the tables of a document. -/
def addSections : List (Text × Node) → List Section → Option (List (Text × Node))
  | members, [] => some members
  | members, s :: ss => (addSection members s).bind fun members => addSections members ss

end BlockDocument.Toml
