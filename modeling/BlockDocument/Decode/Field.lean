import BlockDocument.Decode.Mismatch
import BlockDocument.Dictionary

/-!
# Values and fields

The decoders of simple values, and of what is made of fields. Something made of fields is decoded
by setting one field after the other in a value that holds the defaults: from the members of an
object, where names that are not known are passed over and no field may be set twice, or from the
items of an array, which give the fields in order.
-/

namespace BlockDocument.Decode

open BlockDocument (Json)

variable {α σ : Type}

/-- Refuses a value where something else is expected. -/
def mismatch (value : Json) (expected : Expected) : Decoded α :=
  .error (.invalidType (.ofJson value) expected)

/-- Decodes a text. -/
def text : Json → Decoded Text
  | .text t => .ok t
  | v => mismatch v .text

/-- Decodes a truth value. -/
def bool : Json → Decoded Bool
  | .bool b => .ok b
  | v => mismatch v .bool

/-- Decodes a text that may be null. -/
def optionalText : Json → Decoded (Option Text)
  | .null => .ok none
  | v => (text v).map some

/-- Decodes every one of a list of values, up to the first that does not fit. -/
def each (decode : Json → Decoded α) : List Json → Decoded (List α)
  | [] => .ok []
  | v :: vs =>
    match decode v with
    | .error e => .error e
    | .ok a =>
      match each decode vs with
      | .error e => .error e
      | .ok as => .ok (a :: as)

/-- Decodes the items of an array. -/
def list (decode : Json → Decoded α) : Json → Decoded (List α)
  | .array items => each decode items
  | v => mismatch v .sequence

/-- Decodes the members of an object that may have any keys. -/
def dictionary (value : Json → α) : Json → Decoded (Dictionary α)
  | .object members => .ok (.ofList (members.map fun m => (m.1, value m.2)))
  | v => mismatch v .map

/-- The names of something's fields, in order, and how a field is set. -/
structure Fields (σ : Type) where
  names : List Text
  /-- The field that a name stands for, if it is another name of a field. -/
  meaning : Text → Text := id
  assign : (name : Text) → Json → σ → Decoded σ

namespace Fields

/-- The field of a member, if its name is that of one. -/
def field? (f : Fields σ) (name : Text) : Option Text :=
  if f.names.contains (f.meaning name) then some (f.meaning name) else none

/-- Sets the fields that an object's members name, `seen` being those already set. -/
def ofMembers (f : Fields σ) : (seen : List Text) → σ → List (Text × Json) → Decoded σ
  | _, s, [] => .ok s
  | seen, s, (key, value) :: members =>
    match f.field? key with
    | none => ofMembers f seen s members
    | some name =>
      if seen.contains name then .error (.duplicateField name)
      else
        match f.assign name value s with
        | .error e => .error e
        | .ok s => ofMembers f (name :: seen) s members

/-- Sets the fields of the given names in order from an array's items, and gives the items that
are left over. -/
def ofItems (f : Fields σ) : (names : List Text) → σ → List Json → Decoded (σ × List Json)
  | name :: names, s, value :: items =>
    match f.assign name value s with
    | .error e => .error e
    | .ok s => ofItems f names s items
  | _, s, items => .ok (s, items)

/-- Sets the fields from an object. Anything else gives nothing, and so does a value that does not
fit its field. -/
def ofObject? (f : Fields σ) (s : σ) : Json → Option σ
  | .object members => (f.ofMembers [] s members).toOption
  | _ => none

/-- Sets the fields from an object, or from an array with no more items than there are fields and
at least as many as `required`. Anything else gives nothing, and so does a value that does not fit
its field. -/
def flexible? (f : Fields σ) (required : Nat) (s : σ) : Json → Option σ
  | .array items =>
    if items.length < required then none
    else
      match f.ofItems f.names s items with
      | .ok (s, []) => some s
      | _ => none
  | v => f.ofObject? s v

end Fields

end BlockDocument.Decode
