import Externs.Compile
import Externs.Model.Dump
import Externs.Proofs.Json.Printed

/-!
# Restoring a dumped model

A dump is read back as a value, and the model is restored from the value, so that no two
models have the same dump.
-/

set_option autoImplicit false

namespace Externs

/-! ## Values without parts -/

namespace Json

def flag? : Json → Option Bool
  | .scalar (.boolean value) => some value
  | _ => none

def text? : Json → Option String
  | .scalar (.string value) => some value
  | _ => none

/-- A text that may be missing. -/
def optionalText? : Json → Option (Option String)
  | .scalar .null => some none
  | json => json.text?.map some

@[simp] theorem flag?_boolean (value : Bool) : (boolean value).flag? = some value := rfl

@[simp] theorem text?_string (value : String) : (string value).text? = some value := rfl

@[simp] theorem optionalText?_string? (value : Option String) :
    (string? value).optionalText? = some value := by
  cases value <;> rfl

@[simp] theorem numberless_string (value : String) : (string value).Numberless := .string value

@[simp] theorem numberless_boolean (value : Bool) : (boolean value).Numberless := .boolean value

@[simp] theorem numberless_string? (value : Option String) : (string? value).Numberless := by
  cases value with
  | none => exact .null
  | some value => exact .string value

theorem numberless_list_iff {items : List Json} :
    (Json.list items).Numberless ↔ ∀ item ∈ items, item.Numberless := by
  constructor
  · intro numberless
    cases numberless with
    | list each => exact each
  · exact .list

@[simp] theorem numberless_object_iff {members : List (String × Json)} :
    (Json.object members).Numberless ↔ ∀ member ∈ members, member.2.Numberless := by
  constructor
  · intro numberless
    cases numberless with
    | object each => exact each
  · exact .object

/-- The items of a list. -/
def listOf? {α : Type} (ofJson? : Json → Option α) : Json → Option (List α)
  | .list items => items.mapM ofJson?
  | _ => none

/-- A value without numbers from which something is restored. -/
structure Encodes {α : Type} (ofJson? : Json → Option α) (json : Json) (content : α) : Prop where
  numberless : json.Numberless
  restored : ofJson? json = some content

theorem encodes_list {α : Type} {toJson : α → Json} {ofJson? : Json → Option α}
    (each : ∀ value, Encodes ofJson? (toJson value) value) (values : List α) :
    Encodes (listOf? ofJson?) (.list (values.map toJson)) values := by
  constructor
  · exact .list (List.forall_mem_map.mpr fun value _ => (each value).numberless)
  · show (values.map toJson).mapM ofJson? = some values
    induction values with
    | nil => rfl
    | cons value rest ih => simp [(each value).restored, ih]

end Json

/-! ## Types -/

/-- A kind that has no parts, by its name. -/
def TypeKind.ofName? : String → Option TypeKind
  | "string" => some .string
  | "integer" => some .integer
  | "number" => some .number
  | "boolean" => some .boolean
  | "any" => some .any
  | "binary" => some .binary
  | "object" => some .object
  | _ => none

mutual

def TypeUse.ofJson? : Json → Option TypeUse
  | .object [("kind", kind), ("nullable", nullable)] => do
      return ⟨← TypeKind.ofJson? kind, ← nullable.flag?⟩
  | _ => none

def TypeKind.ofJson? : Json → Option TypeKind
  | .object [("type", name)] => name.text?.bind TypeKind.ofName?
  | .object [("type", .scalar (.string name)), ("of", part)] =>
      match name with
      | "array" => TypeUse.ofJson? part |>.map .array
      | "ref" => part.text?.map .reference
      | "function" => Function.ofJson? part |>.map .function
      | "inline_object" =>
          match part with
          | .list properties => propertiesOfJson? properties |>.map .inlineObject
          | _ => none
      | "choices" =>
          match part with
          | .list types => typesOfJson? types |>.map .choices
          | _ => none
      | _ => none
  | _ => none

def Property.ofJson? : Json → Option Property
  | .object [
      ("name", name),
      ("type", type),
      ("optional", optional),
      ("description", description),
      ("jsexterns", jsexterns)] => do
      return ⟨← name.text?, ← TypeUse.ofJson? type, ← optional.flag?, ← description.optionalText?,
        ← jsexterns.optionalText?⟩
  | _ => none

def Function.ofJson? : Json → Option Function
  | .object [
      ("name", name),
      ("params", .list parameters),
      ("returns", returns),
      ("description", description),
      ("deprecated", deprecated)] => do
      return ⟨← name.text?, ← propertiesOfJson? parameters, ← returnOfJson? returns,
        ← description.optionalText?, ← deprecated.optionalText?⟩
  | _ => none

def typesOfJson? : List Json → Option (List TypeUse)
  | [] => some []
  | json :: rest => do
      return (← TypeUse.ofJson? json) :: (← typesOfJson? rest)

def propertiesOfJson? : List Json → Option (List Property)
  | [] => some []
  | json :: rest => do
      return (← Property.ofJson? json) :: (← propertiesOfJson? rest)

def returnOfJson? : Json → Option (Option Return)
  | .scalar .null => some none
  | .object [("type", type), ("description", description)] => do
      return some ⟨← TypeUse.ofJson? type, ← description.optionalText?⟩
  | _ => none

end

open Json (Encodes)

mutual

theorem TypeUse.encodes_toJson (type : TypeUse) : Encodes TypeUse.ofJson? type.toJson type := by
  obtain ⟨kind, nullable⟩ := type
  have inKind := kind.encodes_toJson
  rw [TypeUse.toJson]
  constructor
  · simp [inKind.numberless]
  · simp [TypeUse.ofJson?, inKind.restored]

theorem TypeKind.encodes_toJson (kind : TypeKind) : Encodes TypeKind.ofJson? kind.toJson kind := by
  -- the name of the kind decides how its part is read
  cases kind with
  | string | integer | number | boolean | any | binary | object =>
      rw [TypeKind.toJson]
      constructor
      · simp
      · rfl
  | inlineObject properties =>
      obtain ⟨numberless, restored⟩ := encodes_propertiesToJson properties
      rw [TypeKind.toJson]
      constructor
      · simp [numberless]
      · exact congrArg (Option.map TypeKind.inlineObject) restored
  | array item =>
      have inItem := item.encodes_toJson
      rw [TypeKind.toJson]
      constructor
      · simp [inItem.numberless]
      · exact congrArg (Option.map TypeKind.array) inItem.restored
  | reference name =>
      rw [TypeKind.toJson]
      constructor
      · simp
      · rfl
  | choices choices =>
      obtain ⟨numberless, restored⟩ := encodes_typesToJson choices
      rw [TypeKind.toJson]
      constructor
      · simp [numberless]
      · exact congrArg (Option.map TypeKind.choices) restored
  | function function =>
      have inFunction := function.encodes_toJson
      rw [TypeKind.toJson]
      constructor
      · simp [inFunction.numberless]
      · exact congrArg (Option.map TypeKind.function) inFunction.restored

theorem Property.encodes_toJson (property : Property) :
    Encodes Property.ofJson? property.toJson property := by
  obtain ⟨name, type, optional, description, jsexterns⟩ := property
  have inType := type.encodes_toJson
  rw [Property.toJson]
  constructor
  · simp [inType.numberless]
  · simp [Property.ofJson?, inType.restored]

theorem Function.encodes_toJson (function : Function) :
    Encodes Function.ofJson? function.toJson function := by
  obtain ⟨name, parameters, returns, description, deprecated⟩ := function
  obtain ⟨inParameters, parametersRead⟩ := encodes_propertiesToJson parameters
  have inReturns := encodes_returnToJson returns
  rw [Function.toJson]
  constructor
  · simp [inParameters, inReturns.numberless]
  · simp [Function.ofJson?, parametersRead, inReturns.restored]

theorem encodes_typesToJson (types : List TypeUse) :
    (Json.list (typesToJson types)).Numberless ∧
      typesOfJson? (typesToJson types) = some types := by
  cases types with
  | nil => exact ⟨.list nofun, rfl⟩
  | cons type rest =>
      have first := type.encodes_toJson
      obtain ⟨numberless, restored⟩ := encodes_typesToJson rest
      rw [typesToJson]
      constructor
      · refine .list (List.forall_mem_cons.mpr ⟨first.numberless, ?_⟩)
        exact Json.numberless_list_iff.mp numberless
      · simp [typesOfJson?, first.restored, restored]

theorem encodes_propertiesToJson (properties : List Property) :
    (Json.list (propertiesToJson properties)).Numberless ∧
      propertiesOfJson? (propertiesToJson properties) = some properties := by
  cases properties with
  | nil => exact ⟨.list nofun, rfl⟩
  | cons property rest =>
      have first := property.encodes_toJson
      obtain ⟨numberless, restored⟩ := encodes_propertiesToJson rest
      rw [propertiesToJson]
      constructor
      · refine .list (List.forall_mem_cons.mpr ⟨first.numberless, ?_⟩)
        exact Json.numberless_list_iff.mp numberless
      · simp [propertiesOfJson?, first.restored, restored]

theorem encodes_returnToJson (returns : Option Return) :
    Encodes returnOfJson? (returnToJson returns) returns := by
  cases returns with
  | none => exact ⟨.null, rfl⟩
  | some found =>
      obtain ⟨type, description⟩ := found
      have inType := type.encodes_toJson
      rw [returnToJson]
      constructor
      · simp [inType.numberless]
      · simp [returnOfJson?, inType.restored]

end

/-! ## Definitions -/

def EnumValue.ofJson? : Json → Option EnumValue
  | .object [("name", name), ("description", description)] => do
      return ⟨← name.text?, ← description.optionalText?⟩
  | _ => none

def Definition.ofJson? : Json → Option Definition
  | .object [("kind", .scalar (.string "record")), ("properties", .list properties),
      ("functions", functions)] => do
      return .record (← propertiesOfJson? properties) (← functions.listOf? Function.ofJson?)
  | .object [("kind", .scalar (.string "enum")), ("values", values)] => do
      return .enumeration (← values.listOf? EnumValue.ofJson?)
  | .object [("kind", .scalar (.string "choice")), ("choices", .list choices)] => do
      return .choice (← typesOfJson? choices)
  | .object [("kind", .scalar (.string "alias")), ("target", target)] => do
      return .alias (← TypeUse.ofJson? target)
  | _ => none

def TypeDefinition.ofJson? : Json → Option TypeDefinition
  | .object [
      ("name", name),
      ("description", description),
      ("deprecated", deprecated),
      ("kind", definition)] => do
      return ⟨← name.text?, ← description.optionalText?, ← deprecated.optionalText?,
        ← Definition.ofJson? definition⟩
  | _ => none

def Event.ofJson? : Json → Option Event
  | .object [
      ("name", name),
      ("params", .list parameters),
      ("description", description),
      ("deprecated", deprecated)] => do
      return ⟨← name.text?, ← propertiesOfJson? parameters, ← description.optionalText?,
        ← deprecated.optionalText?⟩
  | _ => none

def Namespace.ofJson? : Json → Option Namespace
  | .object [
      ("name", name),
      ("description", description),
      ("source_file", sourceFile),
      ("types", types),
      ("functions", functions),
      ("events", events)] => do
      return ⟨← name.text?, ← description.optionalText?, ← sourceFile.text?,
        ← types.listOf? TypeDefinition.ofJson?, ← functions.listOf? Function.ofJson?,
        ← events.listOf? Event.ofJson?⟩
  | _ => none

theorem EnumValue.encodes_toJson (value : EnumValue) :
    Encodes EnumValue.ofJson? value.toJson value := by
  constructor
  · simp [EnumValue.toJson]
  · simp [EnumValue.toJson, EnumValue.ofJson?]

theorem Definition.encodes_toJson (definition : Definition) :
    Encodes Definition.ofJson? definition.toJson definition := by
  cases definition with
  | enumeration values =>
      have inValues := Json.encodes_list EnumValue.encodes_toJson values
      rw [Definition.toJson]
      constructor
      · simp [inValues.numberless]
      · simp [Definition.ofJson?, Json.string, inValues.restored]
  | record properties functions =>
      obtain ⟨inProperties, propertiesRead⟩ := encodes_propertiesToJson properties
      have inFunctions := Json.encodes_list Function.encodes_toJson functions
      rw [Definition.toJson]
      constructor
      · simp [inProperties, inFunctions.numberless]
      · simp [Definition.ofJson?, Json.string, propertiesRead, inFunctions.restored]
  | choice choices =>
      obtain ⟨numberless, restored⟩ := encodes_typesToJson choices
      rw [Definition.toJson]
      constructor
      · simp [numberless]
      · simp [Definition.ofJson?, Json.string, restored]
  | «alias» target =>
      have inTarget := target.encodes_toJson
      rw [Definition.toJson]
      constructor
      · simp [inTarget.numberless]
      · simp [Definition.ofJson?, Json.string, inTarget.restored]

theorem TypeDefinition.encodes_toJson (type : TypeDefinition) :
    Encodes TypeDefinition.ofJson? type.toJson type := by
  have inDefinition := type.definition.encodes_toJson
  rw [TypeDefinition.toJson]
  constructor
  · simp [inDefinition.numberless]
  · simp [TypeDefinition.ofJson?, inDefinition.restored]

theorem Event.encodes_toJson (event : Event) : Encodes Event.ofJson? event.toJson event := by
  obtain ⟨numberless, restored⟩ := encodes_propertiesToJson event.parameters
  rw [Event.toJson]
  constructor
  · simp [numberless]
  · simp [Event.ofJson?, restored]

theorem Namespace.encodes_toJson (space : Namespace) :
    Encodes Namespace.ofJson? space.toJson space := by
  have inTypes := Json.encodes_list TypeDefinition.encodes_toJson space.types
  have inFunctions := Json.encodes_list Function.encodes_toJson space.functions
  have inEvents := Json.encodes_list Event.encodes_toJson space.events
  rw [Namespace.toJson]
  constructor
  · simp [inTypes.numberless, inFunctions.numberless, inEvents.numberless]
  · simp [Namespace.ofJson?, inTypes.restored, inFunctions.restored, inEvents.restored]

/-! ## Dumps -/

def restored? (text : String) : Option (List Namespace) :=
  (Json.ofText? text).bind (Json.listOf? Namespace.ofJson?)

theorem restored?_dump (spaces : List Namespace) : restored? (dump spaces) = some spaces := by
  have encodes := Json.encodes_list Namespace.encodes_toJson spaces
  rw [restored?, dump, encodes.numberless.ofText?_pretty]
  exact encodes.restored

/-- A model is restored from its dump, and another model has another dump. -/
theorem dump_determines_namespaces (first second : Compiled) :
    restored? (dump first.namespaces) = some first.namespaces ∧
      (dump first.namespaces = dump second.namespaces ↔
        first.namespaces = second.namespaces) := by
  refine ⟨restored?_dump first.namespaces, ?_, congrArg dump⟩
  intro same
  have both := restored?_dump first.namespaces
  rw [same, restored?_dump] at both
  exact (Option.some.inj both).symm

end Externs
