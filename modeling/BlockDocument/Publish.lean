import BlockDocument.Html.Page
import BlockDocument.Include

/-!
# Publishing

A page is handed over, or written to a file. Only writing it can fail: a document that could not
be read is published as the page that shows why.
-/

namespace BlockDocument

/-- Where a published page is. -/
inductive Delivery
  | inMemory (html : Text)
  | file (path : Text)
  deriving DecidableEq, Repr

/-- A page that could not be written. -/
structure PublishFailure where
  path : Text
  reason : FileError
  deriving DecidableEq, Repr

/-- In words, why a page could not be written. -/
def PublishFailure.message (f : PublishFailure) : Text :=
  "failed to write preview to ".toList ++ f.path ++ ": ".toList ++ f.reason.message

/-- What publishing a page leads to: where the page is, and the files as they are then. -/
structure Published where
  delivery : Except PublishFailure Delivery
  tree : FileTree
  notices : List Notice

/-- Publishes the page of a document, or of the failure to read it. -/
def publish (tree : FileTree) (options : Html.PageOptions) (output : Option Text)
    (parsed : Except Failure Document) : Published :=
  let page := Html.previewPage options parsed
  match output with
  | none => ⟨.ok (.inMemory page.html), tree, page.notices⟩
  | some path =>
    match tree.write path page.html with
    | .error e => ⟨.error ⟨path, e⟩, tree, page.notices⟩
    | .ok written => ⟨.ok (.file path), written, page.notices⟩

end BlockDocument
