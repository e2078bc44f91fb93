import Externs.Diagnostic
import Externs.Json.Reader

/-!
# Rejected schemas

Why a source text is not a schema that can be compiled.
-/

set_option autoImplicit false

namespace Externs.Schema

/-- The fields that a node may have to have. -/
inductive RequiredField where
  | namespace | id | name | items | type
  deriving DecidableEq, Repr

def RequiredField.key : RequiredField → String
  | .namespace => "namespace"
  | .id => "id"
  | .name => "name"
  | .items => "items"
  | .type => "type"

/-- Why a source text is rejected. Nodes are named by their dotted path. -/
inductive Rejection where
  /-- The text is not what a schema looks like; `offset` is the place in the source. -/
  | unreadable (complaint : Json.Complaint) (offset : Nat)
  | unclosedComment (offset : Nat)
  | notAList (file : String)
  | noNamespaces (file : String)
  | missingField (path : String) (field : RequiredField)
  | unknownType (path : String) (typeName : String)
  /-- An enumeration is declared with a type other than `string`. -/
  | enumerationType (path : String) (typeName : String)
  deriving DecidableEq, Repr

def Rejection.diagnostic : Rejection → Diagnostic
  | .unreadable complaint offset =>
      { message := "Invalid JSON: " ++ complaint.text
        code := "schema::syntax"
        help := some "Schema files are JSON with optional `//` and `/* */` comments."
        labels := [⟨offset, 0, complaint.text⟩] }
  | .unclosedComment offset =>
      { message := "Unterminated block comment"
        code := "schema::unterminated_comment"
        help := some "Close the comment with `*/`."
        labels := [⟨offset, 2, "Comment starts here"⟩] }
  | .notAList file =>
      { message := "Schema document `" ++ file ++ "` must be a JSON array of namespaces"
        code := "schema::not_an_array" }
  | .noNamespaces file =>
      { message := "Schema document `" ++ file ++ "` declares no namespaces"
        code := "schema::no_namespaces" }
  | .missingField path field =>
      { message := "`" ++ path ++ "` is missing required field `" ++ field.key ++ "`"
        code := "schema::missing_field" }
  | .unknownType path typeName =>
      { message := "`" ++ path ++ "` has unknown type `" ++ typeName ++ "`"
        code := "schema::unknown_type"
        help := some <| "Known types are string, integer, number, double, boolean, any, binary, " ++
          "object, array and function." }
  | .enumerationType path typeName =>
      { message := "`" ++ path ++ "` is not a valid schema node: " ++
          "enum values require type `string`, found `" ++ typeName ++ "`"
        code := "schema::invalid_node" }

end Externs.Schema
