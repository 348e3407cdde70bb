import BlockDocument.Decimal.Binary64

/-!
# JSON values

A value as it was read. The members of an object stand in the order in which they were written,
and a key may occur more than once; `Json.sorted` is the value in which the last one under a key
counts and the members are listed by key.
-/

namespace BlockDocument

/-- A JSON value. -/
inductive Json
  | null
  | bool (value : Bool)
  | integer (value : Int)
  | real (value : Binary64)
  | text (value : Text)
  | array (items : List Json)
  | object (members : List (Text × Json))
  deriving Repr, Inhabited

end BlockDocument
