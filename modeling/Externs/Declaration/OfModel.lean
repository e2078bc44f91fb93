import Externs.Declaration.Basic
import Externs.Enumeration
import Externs.Text.Line
import Externs.TypeExpr.OfType

/-!
# Declarations of a model

What is declared for each entity of a namespace. The first part without a
declaration is reported.
-/

set_option autoImplicit false

namespace Externs

/-- Where the declarations of a namespace stand. -/
structure Site where
  docBaseUrl : String
  scope : Scope
  deriving DecidableEq, Repr

inductive Entity where
  | type (definition : TypeDefinition)
  | function (function : Function)
  | event (event : Event)

/-- The name that an entity has in its namespace. -/
def Entity.name : Entity → String
  | .type declared => declared.name
  | .function declared => declared.name
  | .event declared => declared.name

/-! ## Parts of doc comments -/

/-- The prose of a description: its lines, without those that are blank. -/
def descriptionItems (description : Option String) : List DocItem :=
  ((Text.lines (description.getD "")).filter fun line => !Text.allBlank line).map
    fun line => .prose (Text.trim line)

/-- A deprecation with its message, if there is one. -/
def deprecationItems (deprecated : Option String) : List DocItem :=
  match deprecated with
  | none => []
  | some message =>
      let message := Text.trim message
      if message.isEmpty then [.line "@deprecated"]
      else [.line ("@deprecated " ++ Layout.escaped message)]

/-- What is said about a parameter or a result, unless it is blank. -/
def remark? (description : Option String) : Option String :=
  match description with
  | none => none
  | some description =>
      let remark := Text.trim description
      if remark.isEmpty then none else some remark

def literalItems (literal : String) : List DocItem :=
  (Text.lines (Text.trim literal)).map fun line => .line (Layout.escaped (Text.trim line))

namespace Site

/-- The link to the documentation of an entity. -/
def link (site : Site) (kind name : String) : DocItem :=
  .line ("@see " ++ site.docBaseUrl ++ "/" ++ site.scope.space ++ "#" ++ kind ++ "-" ++ name)

/-! ## Functions and events -/

/-- The tag of a parameter of the function at `entity`. -/
def parameterItem (site : Site) (entity : String) (parameter : Property) :
    Except Defect DocItem := do
  let type ←
    parameter.type.expressionIn .parameter parameter.optional site.scope
      (entity ++ "." ++ parameter.name)
  -- A parameter without a name leaves no blank behind its type.
  let name := if parameter.name.isEmpty then none else some parameter.name
  return .tag "param" type name (remark? parameter.description)

/-- The tag of what the function at `entity` gives back. -/
def returnItems (site : Site) (entity : String) (returns : Option Return) :
    Except Defect (List DocItem) :=
  match returns with
  | none => return []
  | some returns => do
      let type ← returns.type.expressionIn .result false site.scope entity
      return [.tag "return" type none (remark? returns.description)]

/-- A function, declared as one that does nothing and is assigned to `target`. -/
def functionDeclaration (site : Site) (target entity : String) (function : Function) :
    Except Defect Declaration := do
  let parameters ← function.parameters.mapM (site.parameterItem entity)
  let returns ← site.returnItems entity function.returns
  let names := ", ".intercalate (function.parameters.map Property.name)
  return {
    doc :=
      descriptionItems function.description ++ parameters ++ returns ++
        deprecationItems function.deprecated ++ [site.link "method" function.name]
    statement := [target ++ " = function(" ++ names ++ ") \x7b\x7d;"] }

/-- An event. Its parameters are not part of its declaration. -/
def eventDeclaration (site : Site) (event : Event) : Declaration :=
  { doc :=
      descriptionItems event.description ++ [.line "@type \x7b!ChromeEvent\x7d"] ++
        deprecationItems event.deprecated ++ [site.link "event" event.name]
    statement := [site.scope.qualify event.name ++ ";"] }

/-! ## Types -/

/-- An enumeration: an object with one member for each value. -/
def enumerationDeclaration (site : Site) (type : TypeDefinition) (values : List EnumValue) :
    Except Defect Declaration :=
  if values.isEmpty then throw (.emptyEnumeration site.scope.space type.name)
  else
    let member (value : EnumValue) : String :=
      "  " ++ Enumeration.key value.name ++ ": " ++ Enumeration.literal value.name ++ ","
    return {
      doc :=
        descriptionItems type.description ++ [.line "@enum \x7bstring\x7d"] ++
          deprecationItems type.deprecated ++ [site.link "type" type.name]
      statement :=
        [site.scope.qualify type.name ++ " = \x7b"] ++ values.map member ++ ["\x7d;"] }

/-- A name for the type with the given expression. -/
def typedefDeclaration (site : Site) (type : TypeDefinition) (expression : TypeExpr) :
    Declaration :=
  { doc :=
      descriptionItems type.description ++ [.tag "typedef" expression none none] ++
        deprecationItems type.deprecated ++ [site.link "type" type.name]
    statement := [site.scope.qualify type.name ++ ";"] }

/-- A private constructor. -/
def constructorDeclaration (site : Site) (type : TypeDefinition) : Declaration :=
  { doc :=
      descriptionItems type.description ++ [.line "@constructor", .line "@private"] ++
        deprecationItems type.deprecated ++ [site.link "type" type.name]
    statement := [site.scope.qualify type.name ++ " = function() \x7b\x7d;"] }

/-- A member of the prototype for a property. A literal annotation stands in
place of the one made from the type, which is then not looked at. -/
def propertyDeclaration (site : Site) (type : TypeDefinition) (property : Property) :
    Except Defect Declaration := do
  let typing ←
    match property.jsexterns with
    | some literal => pure (literalItems literal)
    | none => do
        let expression ←
          property.type.expressionIn .field property.optional site.scope
            (type.name ++ "." ++ property.name)
        pure [.tag "type" expression none none]
  return {
    doc :=
      descriptionItems property.description ++ typing ++ [site.link "type" property.name]
    statement :=
      [site.scope.qualify type.name ++ ".prototype." ++ property.name ++ ";"] }

/-- A member of the prototype for a method. -/
def methodDeclaration (site : Site) (type : TypeDefinition) (method : Function) :
    Except Defect Declaration :=
  site.functionDeclaration
    (site.scope.qualify type.name ++ ".prototype." ++ method.name)
    (type.name ++ "." ++ method.name) method

def typeBlock (site : Site) (type : TypeDefinition) : Except Defect Block :=
  match type.definition with
  | .enumeration values => .single <$> site.enumerationDeclaration type values
  | .record properties functions =>
      if functions.isEmpty then
        if properties.isEmpty then throw (.emptyRecord site.scope.space type.name)
        else do
          let expression ← objectExpression site.scope type.name properties
          return .single (site.typedefDeclaration type expression)
      else do
        let properties ← properties.mapM (site.propertyDeclaration type)
        let methods ← functions.mapM (site.methodDeclaration type)
        return .cluster (site.constructorDeclaration type :: properties ++ methods)
  | .choice choices => do
      let expression ← unionExpression site.scope type.name choices
      return .single (site.typedefDeclaration type expression)
  | .alias target => do
      let expression ← target.expression site.scope type.name
      return .single (site.typedefDeclaration type expression)

def entityBlock (site : Site) : Entity → Except Defect Block
  | .type definition => site.typeBlock definition
  | .function function =>
      .single <$>
        site.functionDeclaration (site.scope.qualify function.name) function.name function
  | .event event => return .single (site.eventDeclaration event)

end Site

end Externs
