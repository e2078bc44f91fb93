/-!
# The model of an API

Namespaces with their types, functions and events. This is what schema documents
are turned into and what declarations are written from.
-/

set_option autoImplicit false

namespace Externs

/-! ## Types -/

mutual

structure TypeUse where
  kind : TypeKind
  nullable : Bool

/-- What a type is, apart from whether it may be null. -/
inductive TypeKind where
  | string
  | integer
  | number
  | boolean
  | any
  | binary
  /-- An object of unknown shape. -/
  | object
  /-- An object with the given fields. -/
  | inlineObject (properties : List Property)
  | array (item : TypeUse)
  /-- A named type of this namespace, or of another one if the name has a dot. -/
  | reference (name : String)
  | choices (choices : List TypeUse)
  | function (function : Function)

/-- A field of an object or a parameter of a function. -/
structure Property where
  name : String
  type : TypeUse
  optional : Bool
  description : Option String
  /-- A literal annotation that stands in place of the one made from the type. -/
  jsexterns : Option String

structure Return where
  type : TypeUse
  description : Option String

structure Function where
  name : String
  parameters : List Property
  returns : Option Return
  description : Option String
  /-- The message of a deprecation, which may be empty. -/
  deprecated : Option String

end

/-! ## Definitions -/

structure EnumValue where
  name : String
  description : Option String := none
  deriving DecidableEq, Repr

inductive Definition where
  | enumeration (values : List EnumValue)
  | record (properties : List Property) (functions : List Function)
  | choice (choices : List TypeUse)
  /-- Another name for any other use of a type. -/
  | alias (target : TypeUse)

/-- A record with methods is declared as a constructor. -/
def Definition.isConstructor? : Definition → Option Bool
  | .record _ functions => some !functions.isEmpty
  | _ => none

structure TypeDefinition where
  name : String
  description : Option String
  deprecated : Option String
  definition : Definition

structure Event where
  name : String
  parameters : List Property
  description : Option String
  deprecated : Option String

structure Namespace where
  name : String
  description : Option String
  sourceFile : String
  types : List TypeDefinition
  functions : List Function
  events : List Event

def Namespace.findType? (space : Namespace) (name : String) : Option TypeDefinition :=
  space.types.find? fun type => type.name == name

end Externs
