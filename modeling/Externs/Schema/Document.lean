import Externs.Json.Record
import Externs.Schema.Node

/-!
# Reading schema documents

A schema document is a list of namespaces. This module says how each field is
written, and reads the whole document.
-/

set_option autoImplicit false

namespace Externs.Schema

open Json (Reader)
open Json.Reader

/-! ## Fields with a form of their own -/

/-- A flag is a truth value, or the text of one. -/
def flag (value : Reader Json) : Reader Bool := do
  match ← value with
  | .scalar (.boolean value) => return value
  | .scalar (.string text) =>
      if text = "true" then return true
      else if text = "false" then return false
      else refuse (.wrongValue (.scalar (.string text)) "a boolean")
  | _ => refuse (.noVariant "Flag")

/-- A deprecation is a message, or a flag that stands for an empty one. -/
def deprecation (value : Reader Json) : Reader (Option String) := do
  match ← optional value with
  | none => return none
  | some (.scalar (.string text)) => return some text
  | some (.scalar (.boolean true)) => return some ""
  | some (.scalar (.boolean false)) => return none
  | some _ => refuse (.noVariant "Message")

/-- The values that an object gives to a name. -/
def valuesOf (name : String) (members : List (String × Json)) : List Json :=
  (members.filter fun member => member.1 == name).map Prod.snd

/-- An enumeration value is its name, or an object with the name and perhaps a
description, each given once. -/
def enumValue? : Json → Option EnumValue
  | .scalar (.string name) => some { name }
  | .object members =>
      match valuesOf "name" members, valuesOf "description" members with
      | [.scalar (.string name)], [] => some { name }
      | [.scalar (.string name)], [.scalar .null] => some { name }
      | [.scalar (.string name)], [.scalar (.string description)] =>
          some { name, description := some description }
      | _, _ => none
  | _ => none

def enumValue (value : Reader Json) : Reader EnumValue := do
  match enumValue? (← value) with
  | some entry => return entry
  | none => refuse (.noVariant "EnumEntry")

/-! ## Nodes -/

inductive NodeField where
  | id | name | type | reference | description | optional | nullable | deprecated | jsexterns
  | values | properties | additionalProperties | items | choices | parameters | returns
  | functions
  deriving DecidableEq, Repr

/-- The names of the fields, and which of them a list may leave out at its end. -/
def NodeField.fields : Fields NodeField Node where
  label := "SchemaNode"
  fields :=
    [.id, .name, .type, .reference, .description, .optional, .nullable, .deprecated, .jsexterns,
      .values, .properties, .additionalProperties, .items, .choices, .parameters, .returns,
      .functions]
  key
    | .id => "id"
    | .name => "name"
    | .type => "type"
    | .reference => "$ref"
    | .description => "description"
    | .optional => "optional"
    | .nullable => "nullable"
    | .deprecated => "deprecated"
    | .jsexterns => "jsexterns"
    | .values => "enum"
    | .properties => "properties"
    | .additionalProperties => "additionalProperties"
    | .items => "items"
    | .choices => "choices"
    | .parameters => "parameters"
    | .returns => "returns"
    | .functions => "functions"
  defaulted
    | .optional | .nullable | .deprecated | .properties => true
    | _ => false
  initial := {}

/-- Readers for what stands inside a node. Nodes in a list or in `properties` are
one bracket deeper than a node that is itself the value of a field. -/
structure Inside where
  value : Reader Json
  deeperValue : Option (Reader Json)
  node : Reader Node
  deeperNode : Option (Reader Node)

/-- Changes the part of a node that is not a node. -/
def Node.modifyFacts (change : Facts → Facts) (node : Node) : Node :=
  { node with facts := change node.facts }

def NodeField.read (inside : Inside) : NodeField → Reader (Node → Node)
  | .id => do
      let id ← Reader.optional string
      return Node.modifyFacts ({ · with id })
  | .name => do
      let name ← Reader.optional string
      return Node.modifyFacts ({ · with name })
  | .type => do
      let typeName ← Reader.optional string
      return Node.modifyFacts ({ · with typeName })
  | .reference => do
      let reference ← Reader.optional string
      return Node.modifyFacts ({ · with reference })
  | .description => do
      let description ← Reader.optional string
      return Node.modifyFacts ({ · with description })
  | .optional => do
      let optional ← flag inside.value
      return Node.modifyFacts ({ · with optional })
  | .nullable => do
      let nullable ← flag inside.value
      return Node.modifyFacts ({ · with nullable })
  | .deprecated => do
      let deprecated ← deprecation inside.value
      return Node.modifyFacts ({ · with deprecated })
  | .jsexterns => do
      let jsexterns ← Reader.optional string
      return Node.modifyFacts ({ · with jsexterns })
  | .values => do
      let values ← Reader.optional (list (inside.deeperValue.map enumValue))
      return Node.modifyFacts ({ · with values })
  | .properties => do
      let properties ←
        object "an object mapping property names to schemas" inside.deeperNode
      return ({ · with properties := some properties })
  | .additionalProperties => do
      let additionalProperties ← Reader.optional inside.value
      return Node.modifyFacts ({ · with additionalProperties })
  | .items => do
      let items ← Reader.optional inside.node
      return ({ · with items })
  | .choices => do
      let choices ← Reader.optional (list inside.deeperNode)
      return ({ · with choices })
  | .parameters => do
      let parameters ← Reader.optional (list inside.deeperNode)
      return ({ · with parameters })
  | .returns => do
      let returns ← Reader.optional inside.node
      return ({ · with returns })
  | .functions => do
      let functions ← Reader.optional (list inside.deeperNode)
      return ({ · with functions })

/-- A node, with at most `depth` brackets open at the same time. -/
def node : (depth : Nat) → Reader Node
  | 0 => NodeField.fields.record none
  | 1 =>
      NodeField.fields.record (some (NodeField.read
        { value := value 0, deeperValue := none, node := node 0, deeperNode := none }))
  | depth + 2 =>
      NodeField.fields.record (some (NodeField.read
        { value := value (depth + 1)
          deeperValue := some (value depth)
          node := node (depth + 1)
          deeperNode := some (node depth) }))

/-! ## Documents -/

inductive NamespaceField where
  | name | description | types | functions | events
  deriving DecidableEq, Repr

/-- The names of the fields, and which of them a list may leave out at its end. -/
def NamespaceField.fields : Fields NamespaceField NamespaceNode where
  label := "NamespaceSchema"
  fields := [.name, .description, .types, .functions, .events]
  key
    | .name => "namespace"
    | .description => "description"
    | .types => "types"
    | .functions => "functions"
    | .events => "events"
  defaulted
    | .types | .functions | .events => true
    | _ => false
  initial := {}

/-- Reads a field of a namespace whose lists hold nodes read by `deeperNode`. -/
def NamespaceField.read (deeperNode : Option (Reader Node)) :
    NamespaceField → Reader (NamespaceNode → NamespaceNode)
  | .name => do
      let name ← Reader.optional string
      return ({ · with name })
  | .description => do
      let description ← Reader.optional string
      return ({ · with description })
  | .types => do
      let types ← list deeperNode
      return ({ · with types })
  | .functions => do
      let functions ← list deeperNode
      return ({ · with functions })
  | .events => do
      let events ← list deeperNode
      return ({ · with events })

/-- The brackets of the document, of a namespace and of a list in it are open
around the nodes of that list. -/
def nodeDepth : Nat := greatestDepth - 3

def namespaceNode : Reader NamespaceNode :=
  NamespaceField.fields.record (some (NamespaceField.read (some (node nodeDepth))))

/-- Reads a schema document without comments. -/
def readDocument (text : List Char) : Except Json.Complaint (List NamespaceNode) :=
  whole (list (some namespaceNode)) text

end Externs.Schema
