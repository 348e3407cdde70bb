import BlockDocument.Config.Setting
import BlockDocument.Text.Natural

/-!
# Key paths

A key path leads from a tree to a setting in it: `preview.sheet.max_rows` goes through tables by
name, and a number in brackets picks the item of an array, a negative one counting from its end.
What does not lie on the path is never touched. What does, and is not a table or an array where
the path needs one, becomes one.
-/

namespace BlockDocument

/-- One step of a key path. -/
inductive PathStep
  | name (name : Text)
  | item (index : Int)
  deriving DecidableEq, Repr

/-- A key path. It begins with a name. -/
structure KeyPath where
  first : Text
  rest : List PathStep := []
  deriving DecidableEq, Repr

namespace KeyPath

/-- Whether a character may stand in the name of a step. -/
def isNameChar (c : Char) : Bool := c.isAlphanum || c == '_' || c == '-' || c == ' '

/-- Whether a character may stand around the number of a step. -/
def isSpace (c : Char) : Bool := c == ' ' || c == '\t'

/-- Reads an index, which has to be a signed number of 64 bits. -/
def readIndex? : Text → Option Int
  | '-' :: digits =>
    match Text.readDigits? digits with
    | some n => if n ≤ Nat.pow 2 63 then some (-n) else none
    | none => none
  | digits =>
    match Text.readDigits? digits with
    | some n => if n < Nat.pow 2 63 then some n else none
    | none => none

/-- The index between brackets, the spaces around it being left out. -/
def indexOf? (t : Text) : Option Int :=
  readIndex? ((t.dropWhile isSpace).reverse.dropWhile isSpace).reverse

theorem length_dropWhile_lt (p : Char → Bool) (c : Char) (t : Text) :
    (t.dropWhile p).length < (c :: t).length := by
  have := (List.dropWhile_suffix (l := t) p).length_le
  simp only [List.length_cons]
  omega

/-- Reads steps up to the end of the text. -/
def readSteps? : Text → Option (List PathStep)
  | [] => some []
  | c :: t =>
    if c = '.' then
      let name := t.takeWhile isNameChar
      if name.isEmpty then none
      else (readSteps? (t.dropWhile isNameChar)).map (.name name :: ·)
    else if c = '[' then
      match _h : t.dropWhile (· != ']') with
      | [] => none
      | _ :: after =>
        match indexOf? (t.takeWhile (· != ']')) with
        | none => none
        | some index => (readSteps? after).map (.item index :: ·)
    else none
termination_by t => t.length
decreasing_by
  · exact length_dropWhile_lt isNameChar c t
  · have := length_dropWhile_lt (· != ']') c t
    rw [_h] at this
    simp only [List.length_cons] at this ⊢
    omega

/-- Reads a key path. -/
def parse? (t : Text) : Option KeyPath :=
  let name := t.takeWhile isNameChar
  if name.isEmpty then none
  else (readSteps? (t.dropWhile isNameChar)).map fun rest => ⟨name, rest⟩

end KeyPath

namespace Setting

/-- The place of an item among `size` of them. -/
def itemPlace (size : Nat) : Int → Nat
  | .ofNat n => n
  | .negSucc n => size - (n + 1)

/-- Changes the item of an array at an index, and fills the array up if it is too short. -/
def modifyItem (s : Setting) (index : Int) (change : Setting → Setting) : Setting :=
  let place := itemPlace s.items.length index
  array ((s.items ++ List.replicate (place + 1 - s.items.length) nil).modify place change)

/-- Puts a setting at the end of some steps. -/
def setSteps (value : Setting) : List PathStep → Setting → Setting
  | [], _ => value
  | [.name name], s => s.overlay name value
  | .name name :: rest, s =>
    s.modify (Text.toLower name) fun inner => setSteps value rest (inner.getD nil)
  | .item index :: rest, s => s.modifyItem index (setSteps value rest)

/-- Puts a setting at the end of a path. -/
def put (s : Setting) (path : KeyPath) (value : Setting) : Setting :=
  setSteps value (.name path.first :: path.rest) s

end Setting

end BlockDocument
