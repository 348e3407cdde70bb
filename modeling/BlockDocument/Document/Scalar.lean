import BlockDocument.Json.Value
import BlockDocument.Decimal.Notation

/-!
# Scalars

Properties and sheet cells hold scalars. Arrays and objects are tolerated where a scalar is
expected: they are kept, and shown as nothing.
-/

namespace BlockDocument

/-- The value of a property or a sheet cell. -/
inductive Scalar
  | bool (value : Bool)
  | number (value : Binary64)
  | text (value : Text)
  | null
  | other (value : Json)
  deriving Repr, Inhabited

namespace Scalar

/-- A scalar as it is shown. -/
def display : Scalar → Text
  | bool true => "true".toList
  | bool false => "false".toList
  | number x => x.positional
  | text t => t
  | null | other _ => []

/-- The text of a scalar that is text. -/
def text? : Scalar → Option Text
  | text t => some t
  | _ => none

/-- Any JSON value read as a scalar; an integer becomes the nearest floating-point number. -/
def ofJson : Json → Scalar
  | .bool b => bool b
  | .integer n => number (.ofInt n)
  | .real x => number x
  | .text t => text t
  | .null => null
  | v@(.array _) | v@(.object _) => other v

end Scalar

end BlockDocument
