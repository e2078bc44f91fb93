import Externs.Model.Basic
import Externs.Schema.Node
import Externs.Schema.Rejection

/-!
# From schema documents to the model

Each node is turned into what it stands for, and the first node that stands for
nothing is reported by its path. What a definition or a use does not look at may
hold anything.
-/

set_option autoImplicit false

namespace Externs.Schema

/-! ## Paths -/

def part (path name : String) : String :=
  path ++ "." ++ name

/-- Splits a path at its last dot. Without a dot there is no parent. -/
def splitPath (path : String) : String × String :=
  let backwards := path.toList.reverse
  match backwards.dropWhile (· != '.') with
  | [] => ("", path)
  | _ :: parent =>
      (String.ofList parent.reverse, String.ofList (backwards.takeWhile (· != '.')).reverse)

def required (path : String) (field : RequiredField) : Option String → Except Rejection String
  | some value => .ok value
  | none => .error (.missingField path field)

/-! ## Uses of types -/

/-- What the name of a type says about a node without reference and choices. -/
inductive TypeForm where
  /-- A type that is known by its name alone. -/
  | plain (kind : TypeKind)
  | array
  | function
  | object
  | unknown (typeName : String)
  /-- There is no name, and the node is no object either. -/
  | missing

/-- The form that the name of a type stands for. -/
def TypeForm.ofName (typeName : String) : TypeForm :=
  if typeName = "string" then .plain .string
  else if typeName = "integer" then .plain .integer
  else if typeName = "number" ∨ typeName = "double" then .plain .number
  else if typeName = "boolean" then .plain .boolean
  else if typeName = "any" then .plain .any
  else if typeName = "binary" then .plain .binary
  else if typeName = "array" then .array
  else if typeName = "function" then .function
  else if typeName = "object" then .object
  else .unknown typeName

def Node.typeForm (node : Node) : TypeForm :=
  match node.facts.typeName with
  | some typeName => .ofName typeName
  | none => if node.isObject then .object else .missing

/-- An object without fields has no shape. -/
def objectKind (properties : List Property) : TypeKind :=
  if properties.isEmpty then .object else .inlineObject properties

/-- A property or parameter with the given name and type. -/
def Node.toProperty (node : Node) (name : String) (type : TypeUse) : Property :=
  { name
    type
    optional := node.facts.optional
    description := node.facts.description
    jsexterns := node.facts.jsexterns }

/-- A function with the given name and signature. -/
def Facts.toFunction (facts : Facts) (name : String) (returns : Option Return)
    (parameters : List Property) : Function :=
  { name
    parameters
    returns
    description := facts.description
    deprecated := facts.deprecated }

mutual

/-- The use of a type. A reference stands for itself whatever else the node has,
and choices come before the type's name. -/
def Node.typeUse (path : String) : Node → Except Rejection TypeUse
  | ⟨facts, properties, items, choices, parameters, returns, functions⟩ => do
      let kind ←
        match facts.reference with
        | some name => pure (.reference name)
        | none =>
            match choices with
            | some choices => TypeKind.choices <$> typeUses path choices
            | none =>
                match Node.typeForm { facts, properties, functions } with
                | .plain kind => pure kind
                | .array => TypeKind.array <$> itemOf path items
                | .function => do
                    let (parent, slot) := splitPath path
                    let name := facts.name.getD slot
                    let returns ← returnOf (part parent name) returns
                    let parameters ← parametersOf (part parent name) parameters
                    pure (.function (facts.toFunction name returns parameters))
                | .object => objectKind <$> fieldsOf path properties
                | .unknown typeName => throw (.unknownType path typeName)
                | .missing => throw (.missingField path .type)
      return ⟨kind, facts.nullable⟩

/-- The items of an array, which have to be given. -/
def itemOf (path : String) : Option Node → Except Rejection TypeUse
  | none => throw (.missingField path .items)
  | some item => item.typeUse (path ++ "[]")

/-- The alternatives of a choice share its path. -/
def typeUses (path : String) : List Node → Except Rejection (List TypeUse)
  | [] => return []
  | node :: rest => do
      let type ← node.typeUse path
      return type :: (← typeUses path rest)

/-- The fields of an object, none if they are not given. -/
def fieldsOf (path : String) : Option (List (String × Node)) → Except Rejection (List Property)
  | none => return []
  | some properties => namedFields path properties

def namedFields (path : String) : List (String × Node) → Except Rejection (List Property)
  | [] => return []
  | (name, node) :: rest => do
      let type ← node.typeUse (part path name)
      return node.toProperty name type :: (← namedFields path rest)

/-- The parameters of a function, none if they are not given. -/
def parametersOf (path : String) : Option (List Node) → Except Rejection (List Property)
  | none => return []
  | some parameters => namedParameters path parameters

/-- Parameters, each of which needs a name. -/
def namedParameters (path : String) : List Node → Except Rejection (List Property)
  | [] => return []
  | node :: rest => do
      let name ← required (part path "parameters") .name node.facts.name
      let type ← node.typeUse (part path name)
      return node.toProperty name type :: (← namedParameters path rest)

def returnOf (path : String) : Option Node → Except Rejection (Option Return)
  | none => return none
  | some node => do
      let type ← node.typeUse (part path "returns")
      return some ⟨type, node.facts.description⟩

end

/-! ## Definitions -/

/-- A function with the given name. What it gives back is looked at first. -/
def Node.function (node : Node) (parent name : String) : Except Rejection Function := do
  let path := part parent name
  let returns ← returnOf path node.returns
  let parameters ← parametersOf path node.parameters
  return node.facts.toFunction name returns parameters

/-- A function of the list at `path`, which needs a name. -/
def Node.namedFunction (path : String) (node : Node) : Except Rejection Function := do
  let name ← required (part path "functions") .name node.facts.name
  node.function path name

/-- The definition of a named type. An enumeration comes before choices, and
these before an object. An object without fields and methods has no shape. -/
def Node.definition (path : String) (node : Node) : Except Rejection Definition := do
  match node.facts.values, node.choices with
  | some values, _ =>
      match node.facts.typeName with
      | some typeName =>
          if typeName = "string" then return .enumeration values
          else throw (.enumerationType path typeName)
      | none => return .enumeration values
  | none, some choices => return .choice (← typeUses path choices)
  | none, none =>
      if node.facts.reference.isNone && node.isObject then
        let properties ← fieldsOf path node.properties
        let functions ← (node.functions.getD []).mapM (Node.namedFunction path)
        if properties.isEmpty && functions.isEmpty then
          return .alias ⟨.object, node.facts.nullable⟩
        else return .record properties functions
      else return .alias (← node.typeUse path)

def Node.typeDefinition (space : String) (node : Node) : Except Rejection TypeDefinition := do
  let name ← required (part space "types") .id node.facts.id
  let definition ← node.definition (part space name)
  return ⟨name, node.facts.description, node.facts.deprecated, definition⟩

/-- An event of a namespace. What it gives back is not looked at. -/
def Node.event (space : String) (node : Node) : Except Rejection Event := do
  let name ← required (part space "events") .name node.facts.name
  let parameters ← parametersOf (part space name) node.parameters
  return ⟨name, parameters, node.facts.description, node.facts.deprecated⟩

def NamespaceNode.lower (file : String) (node : NamespaceNode) : Except Rejection Namespace := do
  let name ← required file .namespace node.name
  let types ← node.types.mapM (Node.typeDefinition name)
  let functions ← node.functions.mapM (Node.namedFunction name)
  let events ← node.events.mapM (Node.event name)
  return {
    name
    description := node.description
    sourceFile := file
    types
    functions
    events }

end Externs.Schema
