import Externs.FileTree
import Externs.Model.Defect
import Externs.Schema.Rejection

/-!
# Failures

All that can go wrong between a schema file and its declarations.
-/

set_option autoImplicit false

namespace Externs

inductive Failure where
  | schema (rejection : Schema.Rejection)
  | model (defect : Defect)
  | file (path : String) (failure : ReadFailure)
  deriving DecidableEq, Repr

def Failure.diagnostic : Failure → Diagnostic
  | .schema rejection => rejection.diagnostic
  | .model defect => defect.diagnostic
  | .file path _ =>
      { message := "Failed to read schema file `" ++ path ++ "`"
        code := "externs::io"
        help := some "Check that the file exists and is readable." }

end Externs
