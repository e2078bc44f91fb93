/-!
# Diagnostics

What a failure tells the user.
-/

set_option autoImplicit false

namespace Externs

/-- A remark on a part of the source, by byte offset and length. -/
structure Label where
  offset : Nat
  length : Nat
  text : String
  deriving DecidableEq, Repr

structure Diagnostic where
  message : String
  code : String
  help : Option String := none
  labels : List Label := []
  deriving DecidableEq, Repr

end Externs
