import BlockDocument.Text.Basic

/-!
# Paths

A path is text. Slashes separate its components, an empty component or a single dot leads nowhere,
and two dots lead to the directory above. A path that begins with a slash starts at the root.
-/

namespace BlockDocument.Path

/-- Whether a path starts at the root. -/
def isAbsolute (path : Text) : Bool := path.head? = some '/'

/-- The pieces of a path between its slashes. -/
def pieces : Text → List Text
  | [] => [[]]
  | c :: rest => if c = '/' then [] :: pieces rest else Text.extendFirst c (pieces rest)

/-- The components of a path, without the empty ones. -/
def components (path : Text) : List Text := (pieces path).filter fun piece => !piece.isEmpty

/-- Whether a path ends in a slash, and so has to lead to a directory. -/
def wantsDirectory (path : Text) : Bool := path.getLast? = some '/'

/-- The path that a target stands for when it is seen from a directory. -/
def join (directory target : Text) : Text :=
  if isAbsolute target || directory.isEmpty then target
  else if wantsDirectory directory then directory ++ target
  else directory ++ '/' :: target

/-- A path given from its end, without the slashes and single dots that it ends in. A slash that
is the whole path stays, and so does a dot. -/
def trimFromEnd : Text → Text
  | '/' :: c :: rest => trimFromEnd (c :: rest)
  | '.' :: '/' :: rest => trimFromEnd ('/' :: rest)
  | path => path

/-- The directory that a path's last component stands in. -/
def parent (path : Text) : Text :=
  match path.reverse.dropWhile (· != '/') with
  | [] => ['.']
  | backwards => (trimFromEnd backwards).reverse

/-- The path from the root with the given components. -/
def absolute (components : List Text) : Text := '/' :: Text.join ['/'] components

/-- That a component is the name of a file or directory. -/
structure IsName (component : Text) : Prop where
  nonempty : component ≠ []
  noSlash : '/' ∉ component
  notHere : component ≠ ['.']
  notAbove : component ≠ ['.', '.']

instance : DecidablePred IsName := fun component =>
  decidable_of_iff
    (component ≠ [] ∧ '/' ∉ component ∧ component ≠ ['.'] ∧ component ≠ ['.', '.'])
    ⟨fun ⟨h, hs, hh, ha⟩ => ⟨h, hs, hh, ha⟩, fun ⟨h, hs, hh, ha⟩ => ⟨h, hs, hh, ha⟩⟩

end BlockDocument.Path
