import Externs.Json.Pretty
import Externs.Model.Basic

/-!
# The model as JSON

Every part of the model becomes an object with all of its fields, in a fixed
order, and `null` for what is missing.
-/

set_option autoImplicit false

namespace Externs

/-! ## Types -/

mutual

def TypeUse.toJson : TypeUse → Json
  | ⟨kind, nullable⟩ => .object [("kind", kind.toJson), ("nullable", .boolean nullable)]

/-- The name of the kind and, if it has parts, what it is made of. -/
def TypeKind.toJson : TypeKind → Json
  | .string => .object [("type", .string "string")]
  | .integer => .object [("type", .string "integer")]
  | .number => .object [("type", .string "number")]
  | .boolean => .object [("type", .string "boolean")]
  | .any => .object [("type", .string "any")]
  | .binary => .object [("type", .string "binary")]
  | .object => .object [("type", .string "object")]
  | .inlineObject properties =>
      .object [("type", .string "inline_object"), ("of", .list (propertiesToJson properties))]
  | .array item => .object [("type", .string "array"), ("of", item.toJson)]
  | .reference name => .object [("type", .string "ref"), ("of", .string name)]
  | .choices choices =>
      .object [("type", .string "choices"), ("of", .list (typesToJson choices))]
  | .function function => .object [("type", .string "function"), ("of", function.toJson)]

def Property.toJson : Property → Json
  | ⟨name, type, optional, description, jsexterns⟩ =>
      .object [
        ("name", .string name),
        ("type", type.toJson),
        ("optional", .boolean optional),
        ("description", .string? description),
        ("jsexterns", .string? jsexterns)]

def Function.toJson : Function → Json
  | ⟨name, parameters, returns, description, deprecated⟩ =>
      .object [
        ("name", .string name),
        ("params", .list (propertiesToJson parameters)),
        ("returns", returnToJson returns),
        ("description", .string? description),
        ("deprecated", .string? deprecated)]

def typesToJson : List TypeUse → List Json
  | [] => []
  | type :: rest => type.toJson :: typesToJson rest

def propertiesToJson : List Property → List Json
  | [] => []
  | property :: rest => property.toJson :: propertiesToJson rest

def returnToJson : Option Return → Json
  | none => .null
  | some ⟨type, description⟩ =>
      .object [("type", type.toJson), ("description", .string? description)]

end

/-! ## Definitions -/

def EnumValue.toJson (value : EnumValue) : Json :=
  .object [("name", .string value.name), ("description", .string? value.description)]

def Definition.toJson : Definition → Json
  | .enumeration values =>
      .object [("kind", .string "enum"), ("values", .list (values.map EnumValue.toJson))]
  | .record properties functions =>
      .object [
        ("kind", .string "record"),
        ("properties", .list (propertiesToJson properties)),
        ("functions", .list (functions.map Function.toJson))]
  | .choice choices =>
      .object [("kind", .string "choice"), ("choices", .list (typesToJson choices))]
  | .alias target => .object [("kind", .string "alias"), ("target", target.toJson)]

def TypeDefinition.toJson (type : TypeDefinition) : Json :=
  .object [
    ("name", .string type.name),
    ("description", .string? type.description),
    ("deprecated", .string? type.deprecated),
    ("kind", type.definition.toJson)]

def Event.toJson (event : Event) : Json :=
  .object [
    ("name", .string event.name),
    ("params", .list (propertiesToJson event.parameters)),
    ("description", .string? event.description),
    ("deprecated", .string? event.deprecated)]

def Namespace.toJson (space : Namespace) : Json :=
  .object [
    ("name", .string space.name),
    ("description", .string? space.description),
    ("source_file", .string space.sourceFile),
    ("types", .list (space.types.map TypeDefinition.toJson)),
    ("functions", .list (space.functions.map Function.toJson)),
    ("events", .list (space.events.map Event.toJson))]

def dump (spaces : List Namespace) : String :=
  (Json.list (spaces.map Namespace.toJson)).pretty

end Externs
