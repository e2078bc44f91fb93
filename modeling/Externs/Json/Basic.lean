import Externs.Decimal.Shortest

/-!
# JSON values

The tree of a JSON text. Objects keep their members in the order of the text,
and keep repeated names.
-/

set_option autoImplicit false

namespace Externs

/-- A number of a JSON text: a whole number that 64 bits can hold, or a double. -/
inductive Json.Number where
  | integer (value : Int)
  | real (negative : Bool) (magnitude : Decimal.Binary64)
  deriving DecidableEq, Repr

inductive Json.Scalar where
  | null
  | boolean (value : Bool)
  | number (value : Json.Number)
  | string (value : String)
  deriving DecidableEq, Repr

/-- A JSON value. -/
inductive Json where
  | scalar (value : Json.Scalar)
  | list (items : List Json)
  | object (members : List (String × Json))

namespace Json

def null : Json := .scalar .null

def boolean (value : Bool) : Json := .scalar (.boolean value)

def string (value : String) : Json := .scalar (.string value)

/-- The value of a text that may be missing. -/
def string? : Option String → Json
  | some value => string value
  | none => null

def realStyle : Decimal.Style := .standard

def Number.text : Number → String
  | .integer value => toString value
  | .real negative magnitude => realStyle.text negative magnitude

end Json

end Externs
