import BlockDocument.Decimal.Extended
import BlockDocument.Text.Lowercase

/-!
# Settings as they are written

A configuration is a tree: tables hold settings under names, and arrays hold them in order. Names
that differ in case only are the same name, so every name is put into a tree in lower case.

Trees are laid over each other. A table is laid over what stands under its name member by member,
so what it does not mention stays; any other setting takes the place of what stands there.
-/

namespace BlockDocument

/-- A setting, or a tree of them. -/
inductive Setting
  | nil
  | bool (value : Bool)
  | integer (value : Int)
  | real (value : Extended)
  | text (value : Text)
  | array (items : List Setting)
  | table (members : List (Text × Setting))
  deriving Repr, Inhabited

namespace Setting

/-- The members of a table. Nothing else has any. -/
def members : Setting → List (Text × Setting)
  | table members => members
  | _ => []

/-- The items of an array. Nothing else has any. -/
def items : Setting → List Setting
  | array items => items
  | _ => []

/-- What stands under a name. -/
def lookup (name : Text) : List (Text × Setting) → Option Setting
  | [] => none
  | (key, value) :: members => if key = name then some value else lookup name members

/-- Changes what stands under a name, and puts the name behind the others if it is new. -/
def alter (name : Text) (change : Option Setting → Setting) :
    List (Text × Setting) → List (Text × Setting)
  | [] => [(name, change none)]
  | (key, value) :: members =>
    if key = name then (key, change (some value)) :: members
    else (key, value) :: alter name change members

theorem lookup_alter_self (name : Text) (change : Option Setting → Setting) :
    ∀ members, lookup name (alter name change members) = some (change (lookup name members))
  | [] => by simp [alter, lookup]
  | (key, value) :: members => by
    by_cases h : key = name
    · simp [alter, lookup, h]
    · simpa [alter, lookup, h] using lookup_alter_self name change members

theorem lookup_alter_of_ne {name other : Text} (change : Option Setting → Setting)
    (hne : other ≠ name) :
    ∀ members, lookup other (alter name change members) = lookup other members
  | [] => by simp [alter, lookup, hne.symm]
  | (key, value) :: members => by
    by_cases h : key = name
    · subst h
      simp [alter, lookup, hne.symm]
    · by_cases h' : key = other
      · subst h'
        simp [alter, lookup, h]
      · simpa [alter, lookup, h, h'] using lookup_alter_of_ne change hne members

/-- What stands under a name in a tree. -/
def get? (s : Setting) (name : Text) : Option Setting := lookup name s.members

/-- Changes what stands under a name, which makes a table of anything else. -/
def modify (s : Setting) (name : Text) (change : Option Setting → Setting) : Setting :=
  table (alter name change s.members)

@[simp] theorem get?_modify_self (s : Setting) (name : Text) (change : Option Setting → Setting) :
    (s.modify name change).get? name = some (change (s.get? name)) :=
  lookup_alter_self name change s.members

theorem get?_modify_of_ne (s : Setting) {name other : Text} (change : Option Setting → Setting)
    (hne : other ≠ name) : (s.modify name change).get? other = s.get? other :=
  lookup_alter_of_ne change hne s.members

mutual

/-- Lays a setting over what stands under a name. -/
def overlay (s : Setting) (name : Text) : (value : Setting) → Setting
  | table members =>
    s.modify (Text.toLower name) fun inner => overlayAll (inner.getD (table [])) members
  | value => s.modify (Text.toLower name) fun _ => value

/-- Lays members over a tree, one after the other. -/
def overlayAll (s : Setting) : List (Text × Setting) → Setting
  | [] => s
  | (name, value) :: members => overlayAll (s.overlay name value) members

end

end Setting

end BlockDocument
