import BlockDocument.Command.Run

/-!
# The command

Running the command reads the files that a run can depend on into a tree, runs it there, and then
prints what it ended in and writes the files that have changed. A run depends on the files of
settings, the input, the files that the input includes, and what stands where the output goes.
-/

namespace BlockDocument.Command

/-- What stands under a path, if it can be read. -/
def look (path : Text) : IO (Option Entry) := do
  try
    return some (.file (.ofBytes (← IO.FS.readBinFile (String.ofList path)).toList))
  catch
    | .inappropriateType .. => return some .directory
    | _ => return none

/-- Puts what stands under the components of a path into a tree, directory by directory. -/
def fetchFrom (tree : FileTree) (place : List Text) : List Text → IO FileTree
  | [] => return tree
  | component :: rest =>
    match hstep : tree.step place component with
    | .error _ => return tree
    | .ok next =>
      match hentry : tree.entry? next with
      | some _ => fetchFrom tree next rest
      | none => do
        match ← look (Path.absolute next) with
        | none => return tree
        | some entry =>
          fetchFrom (tree.put next entry (FileTree.takes_of_step hstep hentry)) next rest

/-- Puts what stands under a path into a tree. -/
def fetch (tree : FileTree) (path : Text) : IO FileTree :=
  fetchFrom tree (if Path.isAbsolute path then [] else tree.home) (Path.components path)

/-- Puts what stands under several paths into a tree. -/
def fetchAll (tree : FileTree) (paths : List Text) : IO FileTree := paths.foldlM fetch tree

/-- The paths that a file's blocks include. -/
def includedPaths (tree : FileTree) (path : Text) : List Text :=
  match tree.readText path with
  | .error _ => []
  | .ok source =>
    let directory := Path.parent ((tree.canonical path).toOption.getD path)
    match readSource source with
    | .error _ => []
    | .ok d => (d.blocks.filterMap Block.includeTarget?).map (Path.join directory)

/-- Puts files into a tree with those that they include, down to a number of levels. -/
def fetchIncluded (tree : FileTree) (paths : List Text) : (levels : Nat) → IO FileTree
  | 0 => return tree
  | levels + 1 => do
    let tree ← fetchAll tree paths
    fetchIncluded tree (paths.flatMap (includedPaths tree)).eraseDups levels

/-- The paths that a task depends on: the document that it reads, and all others. -/
def Task.paths : Task → List Text × List Text
  | .preview input output .. => ([input], output.toList)
  | .check input | .format input _ => ([], [input])
  | .stylesheet => ([], [])

/-- The tree of the files that a run can depend on. -/
def gather (home : List Text) (i : Invocation) : IO FileTree := do
  let config := (layers i.config).files.flatMap fun f => [f.path, tomlPath f.path]
  let (documents, others) := (i.task.map Task.paths).getD ([], [])
  let tree ← fetchAll (.within home) (Path.absolute home :: config ++ others)
  fetchIncluded tree documents (maxIncludeDepth + 2)

/-- Writes the files that a run has changed. -/
def save (before after : FileTree) : IO Unit :=
  for (place, entry) in after.entries do
    if before.entry? place ≠ some entry then
      match entry with
      | .file (.text content) =>
        IO.FS.writeFile (String.ofList (Path.absolute place)) (String.ofList content)
      | _ => pure ()

/-- Runs the command in the working directory. -/
def runHere (arguments : List Text) : IO Nat := do
  let home := Path.components (← IO.currentDir).toString.toList
  let before ←
    match Invocation.ofArguments (Split.ofArguments arguments).plain with
    | .ok i => gather home i
    | .error _ => pure (.within home)
  let outcome := run before arguments
  for m in outcome.messages do
    IO.eprintln (String.ofList m.display)
  save before outcome.tree
  IO.print (String.ofList outcome.output)
  return outcome.status

end BlockDocument.Command

/-- The command. -/
def main (arguments : List String) : IO UInt32 := do
  return (← BlockDocument.Command.runHere (arguments.map String.toList)).toUInt32
