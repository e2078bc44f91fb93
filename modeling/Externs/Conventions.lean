import Externs.Json.Record

/-!
# Conventions of the output

What the declarations look like beyond what a schema says: the conventions,
which can be read from a JSON text, and the provenance, which stands in the
header.
-/

set_option autoImplicit false

namespace Externs

/-- Conventions that all declaration files follow. -/
structure Conventions where
  /-- The global object that has the namespaces as its parts. -/
  root : String := "chrome"
  /-- What every link to the documentation starts with. -/
  docBaseUrl : String := "https://developer.chrome.com/extensions"
  copyrightHolder : String := "The Chromium Authors"
  /-- The column at which prose is wrapped. -/
  commentWidth : Nat := 80
  deriving DecidableEq, Repr

namespace Conventions

open Json (Reader)
open Json.Reader

inductive Field where
  | root | docBaseUrl | copyrightHolder | commentWidth
  deriving DecidableEq, Repr

/-- All fields may be left out. -/
def Field.fields : Fields Field Conventions where
  label := "GeneratorConfig"
  fields := [.root, .docBaseUrl, .copyrightHolder, .commentWidth]
  key
    | .root => "root"
    | .docBaseUrl => "docBaseUrl"
    | .copyrightHolder => "copyrightHolder"
    | .commentWidth => "commentWidth"
  defaulted _ := true
  initial := {}

def Field.read : Field → Reader (Conventions → Conventions)
  | .root => do
      let root ← string
      return ({ · with root })
  | .docBaseUrl => do
      let docBaseUrl ← string
      return ({ · with docBaseUrl })
  | .copyrightHolder => do
      let copyrightHolder ← string
      return ({ · with copyrightHolder })
  | .commentWidth => do
      let commentWidth ← size
      return ({ · with commentWidth })

/-- Reads conventions from a JSON text; what it does not set keeps its default. -/
def read (text : String) : Except Json.Complaint Conventions :=
  whole (Field.fields.record (some Field.read)) text.toList

end Conventions

structure Provenance where
  year : Int
  command : String
  deriving DecidableEq, Repr

/-- The command with slashes between the parts of its path. -/
def Provenance.displayCommand (provenance : Provenance) : String :=
  provenance.command.map fun c => if c = '\\' then '/' else c

end Externs
