import BlockDocument.Files.Path

/-!
# File trees

A tree holds files and directories under the components of their paths from the root, and knows
which directory is the working directory. All that it holds stands in a directory: this is part of
the type, so something can only be put where there is a directory above (`FileTree.Takes`).
Looking for a path walks along its components; what stands in the way of that is a `FileError`.
Nothing in a tree points elsewhere.
-/

namespace BlockDocument

/-- Why a file cannot be read or written. -/
inductive FileError
  | notFound | notADirectory | isADirectory | nameTooLong | nulByte | notText
  deriving DecidableEq, Repr

/-- A file error in words. -/
def FileError.message : FileError → Text
  | notFound => "No such file or directory (os error 2)".toList
  | notADirectory => "Not a directory (os error 20)".toList
  | isADirectory => "Is a directory (os error 21)".toList
  | nameTooLong => "File name too long (os error 36)".toList
  | nulByte => "file name contained an unexpected NUL byte".toList
  | notText => "stream did not contain valid UTF-8".toList

/-- What a file holds: text, or bytes that are no text. -/
inductive FileContent
  | text (content : Text)
  | other (bytes : List UInt8)
  deriving DecidableEq, Repr

/-- What bytes hold. -/
def FileContent.ofBytes (bytes : List UInt8) : FileContent :=
  match String.fromUTF8? ⟨bytes.toArray⟩ with
  | some s => text s.toList
  | none => other bytes

/-- What stands under a path. -/
inductive Entry
  | directory
  | file (content : FileContent)
  deriving DecidableEq, Repr

/-- What stands under the given components among entries. There is always a root. -/
def Entry.find? (entries : List (List Text × Entry)) (components : List Text) : Option Entry :=
  if components.isEmpty then some .directory
  else (entries.find? fun e => e.1 = components).map (·.2)

/-- Files and directories under the components of their paths, and the components of the path of
the working directory. -/
structure FileTree where
  home : List Text
  entries : List (List Text × Entry)
  isName_home : ∀ name ∈ home, Path.IsName name
  inDirectory : ∀ e ∈ entries, Entry.find? entries e.1.dropLast = some .directory
  deriving DecidableEq, Repr

namespace FileTree

variable {tree : FileTree}

/-- What stands under the given components. -/
def entry? (tree : FileTree) (components : List Text) : Option Entry :=
  Entry.find? tree.entries components

/-- What stands somewhere stands in a directory. -/
theorem entry?_dropLast {place : List Text} {e : Entry} (h : tree.entry? place = some e) :
    tree.entry? place.dropLast = some .directory := by
  unfold entry? Entry.find? at h
  split at h
  · rename_i hp
    rw [List.isEmpty_iff.1 hp]
    rfl
  · obtain ⟨found, hf, -⟩ := Option.map_eq_some_iff.1 h
    have hm := tree.inDirectory found (List.mem_of_find?_eq_some hf)
    have hp := List.find?_some hf
    rwa [of_decide_eq_true hp] at hm

/-- The longest name that a file or directory can have, in bytes. -/
def maxNameSize : Nat := 255

/-- The longest path that can be looked for, in bytes. -/
def maxPathSize : Nat := 4095

/-- Takes one step from a directory. -/
def step (tree : FileTree) (place : List Text) (component : Text) : Except FileError (List Text) :=
  match tree.entry? place with
  | none => .error .notFound
  | some (.file _) => .error .notADirectory
  | some .directory =>
    if component = ['.'] then .ok place
    else if component = ['.', '.'] then .ok place.dropLast
    else if component.byteSize > maxNameSize then .error .nameTooLong
    else .ok (place ++ [component])

theorem step_cases {place next : List Text} {component : Text}
    (h : tree.step place component = .ok next) :
    tree.entry? place = some .directory
      ∧ (component = ['.'] ∧ next = place
        ∨ component = ['.', '.'] ∧ next = place.dropLast
        ∨ component ≠ ['.'] ∧ component ≠ ['.', '.'] ∧ next = place ++ [component]) := by
  unfold step at h
  split at h
  · cases h
  · cases h
  · rename_i hd
    refine ⟨hd, ?_⟩
    split at h
    · rename_i hc
      exact .inl ⟨hc, (Except.ok.inj h).symm⟩
    · rename_i hc
      split at h
      · rename_i hc'
        exact .inr (.inl ⟨hc', (Except.ok.inj h).symm⟩)
      · rename_i hc'
        split at h
        · cases h
        · exact .inr (.inr ⟨hc, hc', (Except.ok.inj h).symm⟩)

/-- Walks along components. Only the place that the last step leads to need not exist. -/
def walk (tree : FileTree) : (place : List Text) → List Text → Except FileError (List Text)
  | place, [] => .ok place
  | place, component :: rest =>
    match tree.step place component with
    | .error e => .error e
    | .ok place => walk tree place rest

theorem walk_cons {place next : List Text} {component : Text} {more : List Text} :
    tree.walk place (component :: more) = .ok next
      ↔ ∃ mid, tree.step place component = .ok mid ∧ tree.walk mid more = .ok next := by
  rw [walk]
  cases tree.step place component <;> simp

/-- The components of the place that a path leads to, which need not exist. -/
def place (tree : FileTree) (path : Text) : Except FileError (List Text) :=
  if path.contains '\x00' then .error .nulByte
  else if path.isEmpty then .error .notFound
  else if path.byteSize > maxPathSize then .error .nameTooLong
  else tree.walk (if Path.isAbsolute path then [] else tree.home) (Path.components path)

/-- What a path leads to, with the components of its place. -/
def find (tree : FileTree) (path : Text) : Except FileError (List Text × Entry) :=
  match tree.place path with
  | .error e => .error e
  | .ok place =>
    match tree.entry? place with
    | none => .error .notFound
    | some (.file content) =>
      if Path.wantsDirectory path then .error .notADirectory else .ok (place, .file content)
    | some .directory => .ok (place, .directory)

/-- The one path of what a path leads to that starts at the root and holds no dots. -/
def canonical (tree : FileTree) (path : Text) : Except FileError Text :=
  (tree.find path).map fun found => Path.absolute found.1

/-- The text of a file. -/
def readText (tree : FileTree) (path : Text) : Except FileError Text :=
  match tree.find path with
  | .error e => .error e
  | .ok (_, .directory) => .error .isADirectory
  | .ok (_, .file (.text content)) => .ok content
  | .ok (_, .file (.other _)) => .error .notText

/-- Whether a path leads to a file. -/
def isFile (tree : FileTree) (path : Text) : Bool :=
  match tree.find path with
  | .ok (_, .file _) => true
  | _ => false

/-- Whether the last component of a path is one of dots, which lead to a directory. -/
def endsInDots (path : Text) : Bool :=
  match (Path.components path).getLast? with
  | none => true
  | some component => component = ['.'] || component = ['.', '.']

/-! ## Putting something into a tree -/

/-- That something can be put at a place: the place is in a directory, and there is no directory
at it. -/
structure Takes (tree : FileTree) (place : List Text) : Prop where
  inDirectory : tree.entry? place.dropLast = some .directory
  notDirectory : tree.entry? place ≠ some .directory

instance (tree : FileTree) (place : List Text) : Decidable (tree.Takes place) :=
  decidable_of_iff
    (tree.entry? place.dropLast = some .directory ∧ tree.entry? place ≠ some .directory)
    ⟨fun ⟨h, hn⟩ => ⟨h, hn⟩, fun ⟨h, hn⟩ => ⟨h, hn⟩⟩

theorem Takes.ne_nil {place : List Text} (h : tree.Takes place) : place ≠ [] := by
  rintro rfl
  exact h.notDirectory rfl

/-- Puts an entry among entries, instead of the one at its place. -/
def putEntry (place : List Text) (entry : Entry) (entries : List (List Text × Entry)) :
    List (List Text × Entry) :=
  (place, entry) :: entries.filter fun e => e.1 ≠ place

theorem find?_putEntry_self {place : List Text} (h : place ≠ []) (entry : Entry)
    (entries : List (List Text × Entry)) :
    Entry.find? (putEntry place entry entries) place = some entry := by
  have hempty : place.isEmpty = false := by simpa using h
  simp [putEntry, Entry.find?, hempty]

theorem find?_putEntry_of_ne {place other : List Text} (h : other ≠ place) (entry : Entry)
    (entries : List (List Text × Entry)) :
    Entry.find? (putEntry place entry entries) other = Entry.find? entries other := by
  have hfound : (fun e : List Text × Entry => decide (e.1 ≠ place ∧ decide (e.1 = other) = true))
      = fun e => decide (e.1 = other) := by
    funext e
    by_cases he : e.1 = other
    · simp [he, h]
    · simp [he]
  simp only [putEntry, Entry.find?]
  rw [List.find?_cons_of_neg (by simpa using Ne.symm h), List.find?_filter]
  simp only [decide_eq_true_eq] at hfound ⊢
  rw [hfound]

/-- What is above some entry is a directory, so it is not the place that something is put at. -/
theorem Takes.inDirectory_putEntry {place : List Text} (h : tree.Takes place) (entry : Entry) :
    ∀ e ∈ putEntry place entry tree.entries,
      Entry.find? (putEntry place entry tree.entries) e.1.dropLast = some .directory := by
  intro e he
  have habove : tree.entry? e.1.dropLast = some .directory := by
    rcases List.mem_cons.1 he with rfl | he
    · exact h.inDirectory
    · exact tree.inDirectory e (List.mem_filter.1 he).1
  have hne : e.1.dropLast ≠ place := fun heq => h.notDirectory (heq ▸ habove)
  rw [find?_putEntry_of_ne hne]
  exact habove

/-- Puts an entry at a place, instead of the one that is there. -/
def put (tree : FileTree) (place : List Text) (entry : Entry) (h : tree.Takes place) : FileTree :=
  { tree with
    entries := putEntry place entry tree.entries
    inDirectory := h.inDirectory_putEntry entry }

/-- A step to a place where there is nothing leads there from the directory above. -/
theorem takes_of_step {place next : List Text} {component : Text}
    (hs : tree.step place component = .ok next) (hnone : tree.entry? next = none) :
    tree.Takes next := by
  obtain ⟨hd, ⟨-, rfl⟩ | ⟨-, rfl⟩ | ⟨-, -, rfl⟩⟩ := step_cases hs
  · rw [hd] at hnone
    cases hnone
  · rw [entry?_dropLast hd] at hnone
    cases hnone
  · refine ⟨?_, by simp [hnone]⟩
    rwa [List.dropLast_concat]

/-- A path that does not end in dots leads into a directory. -/
theorem inDirectory_of_walk : ∀ {components place next : List Text},
    (∃ name, components.getLast? = some name ∧ name ≠ ['.'] ∧ name ≠ ['.', '.']) →
      tree.walk place components = .ok next → tree.entry? next.dropLast = some .directory
  | [], _, _, h, _ => by
    obtain ⟨_, hlast, -⟩ := h
    cases hlast
  | [component], place, next, h, hw => by
    -- only the last step may lead to a place where there is nothing
    obtain ⟨_, hname, hhere, habove⟩ := h
    cases Option.some.inj hname
    obtain ⟨mid, hs, hnext⟩ := walk_cons.1 hw
    cases Except.ok.inj hnext
    obtain ⟨hd, ⟨hdot, -⟩ | ⟨hdots, -⟩ | ⟨-, -, rfl⟩⟩ := step_cases hs
    · exact absurd hdot hhere
    · exact absurd hdots habove
    · rwa [List.dropLast_concat]
  | _ :: component :: rest, _, _, h, hw => by
    obtain ⟨mid, -, hrest⟩ := walk_cons.1 hw
    rw [List.getLast?_cons_cons] at h
    exact inDirectory_of_walk h hrest

theorem walk_of_place {path : Text} {place : List Text} (h : tree.place path = .ok place) :
    tree.walk (if Path.isAbsolute path then [] else tree.home) (Path.components path)
      = .ok place := by
  unfold FileTree.place at h
  split at h
  · cases h
  · split at h
    · cases h
    · split at h
      · cases h
      · exact h

/-- Where a path leads that is not to lead to a directory, a file can be put. -/
theorem takes_of_place {path : Text} {place : List Text} (hplace : tree.place path = .ok place)
    (h : ¬ (Path.wantsDirectory path = true ∨ endsInDots path = true
      ∨ tree.entry? place = some .directory)) : tree.Takes place := by
  obtain ⟨-, hdots, hfile⟩ := (not_or.1 h).imp_right not_or.1
  refine ⟨inDirectory_of_walk ?_ (walk_of_place hplace), hfile⟩
  unfold endsInDots at hdots
  split at hdots
  · exact absurd rfl hdots
  · rename_i name hname
    simp only [Bool.or_eq_true, decide_eq_true_eq, not_or] at hdots
    exact ⟨name, hname, hdots⟩

/-- Writes a file, a new one or instead of the one that is there. -/
def write (tree : FileTree) (path content : Text) : Except FileError FileTree :=
  match hplace : tree.place path with
  | .error e => .error e
  | .ok place =>
    if h : Path.wantsDirectory path = true ∨ endsInDots path = true
        ∨ tree.entry? place = some .directory then
      .error .isADirectory
    else .ok (tree.put place (.file (.text content)) (takes_of_place hplace h))

/-- The tree that holds nothing yet. What is no name is no part of the path of its working
directory. -/
def within (home : List Text) : FileTree where
  home := home.filter (Path.IsName ·)
  entries := []
  isName_home _ h := of_decide_eq_true (List.mem_filter.1 h).2
  inDirectory _ h := absurd h List.not_mem_nil

/-- Every prefix of a path's components but the empty one and the whole. -/
def ancestors (components : List Text) : List (List Text) :=
  (List.range (components.length - 1)).map fun n => components.take (n + 1)

/-- The tree of the given entries, their paths seen from the working directory. The directories
above them are there too. An entry below a file, or in the place of a directory, is left out. -/
def ofEntries (home : List Text) (entries : List (Text × Entry)) : FileTree :=
  let add (tree : FileTree) (place : List Text) (entry : Entry) : FileTree :=
    if h : tree.Takes place then tree.put place entry h else tree
  let addBelow (tree : FileTree) (place : List Text) (entry : Entry) : FileTree :=
    let tree := (ancestors place).foldl (fun tree above =>
      if (tree.entry? above).isSome then tree else add tree above .directory) tree
    add tree place entry
  entries.foldl (fun tree e => addBelow tree (home ++ Path.components e.1) e.2)
    (addBelow (within home) home .directory)

end FileTree

end BlockDocument
