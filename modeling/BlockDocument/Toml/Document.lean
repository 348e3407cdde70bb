import BlockDocument.Toml.Value

/-!
# TOML documents

A document is made of lines. A line holds an entry or a header, and may end in a comment; only a
value that stretches over lines makes it longer. Entries belong to the header above them, and
those in front of the first header to the document itself.
-/

namespace BlockDocument.Toml

/-- What a line holds. -/
inductive Statement
  | entry (entry : Entry)
  | header (kind : HeaderKind) (path : List Text) (key : Text)

/-- Reads the parts of a header's key, and the brackets that close it. -/
def readHeader (kind : HeaderKind) (close : Text) (fuel : Nat) (t : Text) :
    Option (Statement × Text) := do
  let (parts, t) ← readKey fuel t
  let (path, key) ← splitLast? parts
  let t ← Text.afterStart? close t
  some (.header kind path key, t)

/-- Reads what a line holds. -/
def readStatement (fuel : Nat) : Text → Option (Statement × Text)
  | '[' :: '[' :: t => readHeader .item [']', ']'] fuel t
  | '[' :: t => readHeader .table [']'] fuel t
  | t => (readEntry (readValue fuel nestingLimit) fuel t).map fun r => (.entry r.1, r.2)

/-- Reads the lines of a document, each round reading one of them. -/
def readStatements (lineFuel : Nat) : (fuel : Nat) → Text → Option (List Statement)
  | 0, _ => none
  | fuel + 1, t =>
    if t.isEmpty then some []
    else
      match afterLine? t with
      | some rest => readStatements lineFuel fuel rest
      | none =>
        match readStatement lineFuel (skipBlanks t) with
        | none => none
        | some (s, t) =>
          match afterLine? t with
          | none => none
          | some rest => (readStatements lineFuel fuel rest).map (s :: ·)

/-- The entries in front of the first header, and the sections. -/
def sectionsOf : List Statement → List Entry × List Section
  | [] => ([], [])
  | .entry e :: rest => (e :: (sectionsOf rest).1, (sectionsOf rest).2)
  | .header kind path key :: rest =>
    ([], ⟨kind, path, key, (sectionsOf rest).1⟩ :: (sectionsOf rest).2)

/-- The settings of a document, unless it is not well-formed. A byte order mark may stand at its
beginning. -/
def parse? (t : Text) : Option (List (Text × Setting)) := do
  let t := (Text.afterStart? ['\ufeff'] t).getD t
  let statements ← readStatements (t.length + 1) (t.length + 1) t
  let (entries, sections) := sectionsOf statements
  let members ← addEntries [] entries
  let members ← addSections members sections
  some (settings members)

end BlockDocument.Toml
