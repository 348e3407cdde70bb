import BlockDocument.Decode.Document
import BlockDocument.Failure

/-!
# Includes

A block may stand for the blocks of a file. Reading a document can put those in its place, and in
turn the blocks that they stand for, each file's targets being seen from the directory that the
file is in. The files that are open form a stack: none of them may be included again, and there is
a limit to their number. Side by side a file may be included any number of times.

What is read on the way is part of the result: the files in the order in which they were opened,
also when reading ends in a failure.
-/

namespace BlockDocument

/-- A result with the canonical paths of the files that were included on the way. -/
structure Resolution (α : Type) where
  included : List Text
  result : Except Failure α

namespace Resolution

variable {α β : Type}

/-- A result that includes nothing. -/
def of (result : Except Failure α) : Resolution α := ⟨[], result⟩

/-- A failure that includes nothing. -/
def fail (failure : Failure) : Resolution α := ⟨[], .error failure⟩

/-- Another form of the same result. -/
def map (f : α → β) (r : Resolution α) : Resolution β := ⟨r.included, r.result.map f⟩

/-- What follows a result, unless it is a failure. -/
def andThen (r : Resolution α) (next : α → Resolution β) : Resolution β :=
  match r.result with
  | .error e => ⟨r.included, .error e⟩
  | .ok a =>
    let rest := next a
    ⟨r.included ++ rest.included, rest.result⟩

end Resolution

/-- The blocks that blocks in a directory stand for, `load` giving those of a file. -/
def expandBlocks (load : Text → Resolution (List Block)) (directory : Text) :
    List Block → Resolution (List Block)
  | [] => .of (.ok [])
  | block :: blocks =>
    match block.includeTarget? with
    | none => (expandBlocks load directory blocks).map (block :: ·)
    | some target =>
      (load (Path.join directory target)).andThen fun included =>
        (expandBlocks load directory blocks).map (included ++ ·)

/-- The document that a text holds. -/
def readSource (source : Text) : Except (Json.Stop Decode.Mismatch) Document :=
  Json.readAll Decode.readDocument source

/-- The blocks of a file and of the files that it includes, with `levels` of them still allowed
and the files of the given canonical paths being open. -/
def loadBlocks (tree : FileTree) :
    (levels : Nat) → (opened : List Text) → (path : Text) → Resolution (List Block)
  | 0, _, path => .fail (.includeTooDeep path)
  | levels + 1, opened, path =>
    match tree.canonical path with
    | .error e => .fail (.missingInclude path e)
    | .ok file =>
      if opened.contains file then .fail (.includeCycle path)
      else
        let opening : Resolution Document :=
          match tree.readText file with
          | .error e => ⟨[file], .error (.missingInclude path e)⟩
          | .ok source => ⟨[file], (readSource source).mapError (.malformedInclude path)⟩
        opening.andThen fun document =>
          expandBlocks (loadBlocks tree levels (file :: opened)) (Path.parent file)
            document.blocks

/-- The document with its blocks replaced by those that they stand for, seen from a directory. -/
def resolveDocument (tree : FileTree) (opened : List Text) (directory : Text)
    (document : Document) : Resolution Document :=
  (expandBlocks (loadBlocks tree maxIncludeDepth opened) directory document.blocks).map .mk

/-- What becomes of the blocks that stand for a file. -/
inductive IncludeMode
  /-- They are kept as they are. -/
  | keep
  /-- They are replaced, their targets being seen from a directory. -/
  | resolve (directory : Text)
  deriving DecidableEq, Repr

/-- Reads a document from a text. -/
def parseSource (tree : FileTree) (mode : IncludeMode) (source : Text) : Resolution Document :=
  (Resolution.of ((readSource source).mapError .malformed)).andThen fun document =>
    match mode with
    | .keep => .of (.ok document)
    | .resolve directory => resolveDocument tree [] directory document

/-- Reads a document from a file. Targets are seen from the directory that the file is in, and the
file itself is open meanwhile. -/
def parseFile (tree : FileTree) (resolve : Bool) (path : Text) : Resolution Document :=
  match tree.readText path with
  | .error e => .fail (.unreadable path e)
  | .ok source =>
    (Resolution.of ((readSource source).mapError .malformed)).andThen fun document =>
      if resolve then
        resolveDocument tree (tree.canonical path).toOption.toList (Path.parent path) document
      else .of (.ok document)

end BlockDocument
