import Externs.Json.Basic
import Externs.Model.Basic

/-!
# Schema documents

The tree of a schema document, as it is written: every node has the same set of
fields, whatever it stands for.
-/

set_option autoImplicit false

namespace Externs.Schema

/-- The fields of a node that hold no further nodes. -/
structure Facts where
  id : Option String := none
  name : Option String := none
  typeName : Option String := none
  reference : Option String := none
  description : Option String := none
  optional : Bool := false
  nullable : Bool := false
  /-- The message of a deprecation, which may be empty. -/
  deprecated : Option String := none
  jsexterns : Option String := none
  values : Option (List EnumValue) := none
  additionalProperties : Option Json := none

/-- Any part of a schema: a type definition, a property, a parameter, a function,
an event or the use of a type. -/
structure Node where
  facts : Facts := {}
  properties : Option (List (String × Node)) := none
  items : Option Node := none
  choices : Option (List Node) := none
  parameters : Option (List Node) := none
  returns : Option Node := none
  functions : Option (List Node) := none

/-- A node describes an object if its type says so, or if it has no type but
something that only objects have. -/
def Node.isObject (node : Node) : Bool :=
  match node.facts.typeName with
  | some typeName => typeName == "object"
  | none =>
      node.properties.isSome || node.facts.additionalProperties.isSome || node.functions.isSome

structure NamespaceNode where
  name : Option String := none
  description : Option String := none
  types : List Node := []
  functions : List Node := []
  events : List Node := []

end Externs.Schema
