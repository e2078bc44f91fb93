import Externs.TypeExpr.Basic
import Externs.Model.Basic
import Externs.Model.Defect
import Externs.Text.Blank

/-!
# Expressions of types

The expression of a type of the model, in a namespace under a root object. The
first part that has no expression is reported, with the path of the entity that
it belongs to.
-/

set_option autoImplicit false

namespace Externs

/-! ## Names -/

/-- The namespace that names are looked up in. -/
structure Scope where
  /-- The global object that has the namespaces as its parts. -/
  root : String
  space : String
  deriving DecidableEq, Repr

def Scope.path (scope : Scope) : String :=
  scope.root ++ "." ++ scope.space

/-- The path of a named type. A name with a dot has its namespace already. -/
def Scope.qualify (scope : Scope) (name : String) : String :=
  if name.toList.contains '.' then scope.root ++ "." ++ name
  else scope.root ++ "." ++ scope.space ++ "." ++ name

/-- The parts of a name between its dots; always at least one. -/
def segments : List Char → List (List Char)
  | [] => [[]]
  | c :: rest =>
      if c = '.' then [] :: segments rest
      else
        match segments rest with
        | [] => [[c]]
        | segment :: more => (c :: segment) :: more

/-- A reference is well formed if no part of it is empty or has a blank. -/
def isReference (name : String) : Bool :=
  (segments name.toList).all fun segment => !segment.isEmpty && !segment.any Text.isBlank

/-! ## Nullability -/

/-- What makes the nullability of a type explicit. Arrays and references may be
null unless they are marked, unions, objects and functions may not. All other
types have no mark. -/
def TypeKind.mark (kind : TypeKind) (nullable : Bool) : String :=
  match kind with
  | .array _ | .reference _ => if nullable then "" else "!"
  | .choices _ | .inlineObject _ | .function _ => if nullable then "?" else ""
  | .string | .integer | .number | .boolean | .any | .binary | .object => ""

/-! ## Types -/

mutual

/-- The expression of a type used at `entity`. -/
def TypeUse.expression (scope : Scope) (entity : String) : TypeUse → Except Defect TypeExpr
  | ⟨kind, nullable⟩ => do
      return .ofText (kind.mark nullable) ++ (← kind.expression scope entity)

/-- The expression of a type without its nullability. -/
def TypeKind.expression (scope : Scope) (entity : String) : TypeKind → Except Defect TypeExpr
  | .string => return .ofText "string"
  | .integer => return .ofText "number"
  | .number => return .ofText "number"
  | .boolean => return .ofText "boolean"
  | .any => return .ofText "*"
  | .binary => return .ofText "ArrayBuffer"
  | .object => return .ofText "Object"
  | .inlineObject properties => objectExpression scope entity properties
  | .array item => TypeExpr.array <$> item.expression scope entity
  | .reference name =>
      if isReference name then return .ofText (scope.qualify name)
      else throw (.malformedReference scope.space entity name)
  | .choices choices => unionExpression scope entity choices
  | .function function => function.expression scope entity

/-- The expression of a function type. It has a path of its own at the entity. -/
def Function.expression (scope : Scope) (entity : String) : Function → Except Defect TypeExpr
  | ⟨name, parameters, returns, _, _⟩ => do
      let path := entity ++ "." ++ name
      let parameters ← parameterExpressions scope path parameters
      return .function parameters (← resultExpression scope path returns)

/-- The expression of a union, which needs an alternative. -/
def unionExpression (scope : Scope) (entity : String) : List TypeUse → Except Defect TypeExpr
  | [] => throw (.emptyChoice scope.space entity)
  | first :: rest => do
      let first ← first.expression scope entity
      return .union (first :: (← alternativeExpressions scope entity rest))

def alternativeExpressions (scope : Scope) (entity : String) :
    List TypeUse → Except Defect (List TypeExpr)
  | [] => return []
  | first :: rest => do
      let first ← first.expression scope entity
      return first :: (← alternativeExpressions scope entity rest)

/-- The expression of an object, which needs a field. -/
def objectExpression (scope : Scope) (entity : String) : List Property → Except Defect TypeExpr
  | [] => throw (.emptyObject scope.space entity)
  | first :: rest => do
      let first ← first.fieldExpression scope entity
      return .object (first :: (← fieldExpressions scope entity rest))

def fieldExpressions (scope : Scope) (entity : String) :
    List Property → Except Defect (List TypeExpr)
  | [] => return []
  | first :: rest => do
      let first ← first.fieldExpression scope entity
      return first :: (← fieldExpressions scope entity rest)

/-- The expression of a field with its name. -/
def Property.fieldExpression (scope : Scope) (entity : String) :
    Property → Except Defect TypeExpr
  | ⟨name, type, optional, _, _⟩ => do
      let type ← type.expression scope (entity ++ "." ++ name)
      return .field name (Slot.field.place optional type)

def parameterExpressions (scope : Scope) (path : String) :
    List Property → Except Defect (List TypeExpr)
  | [] => return []
  | ⟨name, type, optional, _, _⟩ :: rest => do
      let type ← type.expression scope (path ++ "." ++ name)
      return Slot.callbackParameter.place optional type ::
        (← parameterExpressions scope path rest)

/-- The expression of what a function gives back. -/
def resultExpression (scope : Scope) (path : String) : Option Return → Except Defect TypeExpr
  | none => return .ofText "void"
  | some ⟨type, _⟩ => type.expression scope path

end

/-- The expression of a type in a slot. -/
def TypeUse.expressionIn (slot : Slot) (optional : Bool) (scope : Scope) (entity : String)
    (type : TypeUse) : Except Defect TypeExpr :=
  slot.place optional <$> type.expression scope entity

end Externs
