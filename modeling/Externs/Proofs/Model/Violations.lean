import Externs.Generator
import Externs.Proofs.Model.Name
import Externs.Proofs.Outcome

/-!
# What is wrong with a namespace

A namespace can be declared if it keeps the rules of the model. This module lists
all violations of these rules, in the order of the namespace and without writing
anything, and shows that generating declarations fails exactly if there is one,
and then with the first.
-/

set_option autoImplicit false

namespace Externs

/-! ## Violations in the uses of types -/

mutual

/-- The violations in a type used at `path`. -/
def TypeUse.violations (space path : String) : TypeUse → List Defect
  | ⟨kind, _⟩ => kind.violations space path

def TypeKind.violations (space path : String) : TypeKind → List Defect
  | .inlineObject [] => [.emptyObject space path]
  | .inlineObject (first :: rest) => propertyViolations space path (first :: rest)
  | .array item => item.violations space path
  | .reference name =>
      if isMalformed name then [.malformedReference space path name] else []
  | .choices [] => [.emptyChoice space path]
  | .choices (first :: rest) => choiceViolations space path (first :: rest)
  | .function function => function.violations space (path ++ "." ++ function.name)
  | .string | .integer | .number | .boolean | .any | .binary | .object => []

/-- The violations in a function that has the given path itself. Its parameters come
before what it gives back, which has the path of the function. -/
def Function.violations (space path : String) : Function → List Defect
  | ⟨_, parameters, returns, _, _⟩ =>
      propertyViolations space path parameters ++ returnViolations space path returns

/-- The violations in fields or parameters, each of which has a path of its own. -/
def propertyViolations (space path : String) : List Property → List Defect
  | [] => []
  | ⟨name, type, _, _, _⟩ :: rest =>
      type.violations space (path ++ "." ++ name) ++ propertyViolations space path rest

/-- The violations in alternatives, which share the path of their union. -/
def choiceViolations (space path : String) : List TypeUse → List Defect
  | [] => []
  | first :: rest => first.violations space path ++ choiceViolations space path rest

def returnViolations (space path : String) : Option Return → List Defect
  | none => []
  | some ⟨type, _⟩ => type.violations space path

end

/-! ## Violations in a namespace -/

/-- The violations in a member of a prototype. The type of one with a literal
annotation is not looked at. -/
def Property.memberViolations (space path : String) (property : Property) : List Defect :=
  if property.jsexterns.isSome then []
  else property.type.violations space (path ++ "." ++ property.name)

def TypeDefinition.violations (space : String) (type : TypeDefinition) : List Defect :=
  match type.definition with
  | .enumeration [] => [.emptyEnumeration space type.name]
  | .enumeration (_ :: _) => []
  | .record properties [] =>
      if properties.isEmpty then [.emptyRecord space type.name]
      else propertyViolations space type.name properties
  | .record properties (first :: rest) =>
      properties.flatMap (Property.memberViolations space type.name) ++
        (first :: rest).flatMap fun method =>
          method.violations space (type.name ++ "." ++ method.name)
  | .choice [] => [.emptyChoice space type.name]
  | .choice (first :: rest) => choiceViolations space type.name (first :: rest)
  | .alias target => target.violations space type.name

def Namespace.names (space : Namespace) : List String :=
  space.types.map TypeDefinition.name ++ space.functions.map Function.name ++
    space.events.map Event.name

/-- The first name that is equal to an earlier one. -/
def firstRepetition? (names : List String) : Option String :=
  (names.zipIdx.find? fun (name, index) => (names.take index).contains name).map Prod.fst

/-- The violations in an entity. The parameters of an event are not looked at. -/
def Entity.violations (space : String) : Entity → List Defect
  | .type declared => declared.violations space
  | .function declared => declared.violations space declared.name
  | .event _ => []

/-- The violations in the entities of a namespace: first its types, then its functions
and then its events. -/
def Namespace.violations (space : Namespace) : List Defect :=
  (space.types.map Entity.type ++ space.functions.map Entity.function ++
    space.events.map Entity.event).flatMap (Entity.violations space.name)

/-- What is reported of a namespace: a repeated name before anything else, and the
first violation in its parts otherwise. -/
def Namespace.firstViolation? (space : Namespace) : Option Defect :=
  match firstRepetition? space.names with
  | some name => some (.repeatedName space.name name)
  | none => space.violations.head?

/-! ## Expressions report the violations in their types -/

mutual

theorem TypeUse.reports_expression (scope : Scope) (path : String) (type : TypeUse) :
    Reports (type.expression scope path) (type.violations scope.space path) :=
  match type with
  | ⟨kind, nullable⟩ => by
      rw [TypeUse.expression, TypeUse.violations]
      exact (kind.reports_expression scope path).bind_pure

theorem TypeKind.reports_expression (scope : Scope) (path : String) (kind : TypeKind) :
    Reports (kind.expression scope path) (kind.violations scope.space path) :=
  match kind with
  | .inlineObject [] => Reports.throw _ []
  | .inlineObject (⟨name, type, optional, description, jsexterns⟩ :: rest) => by
      rw [TypeKind.expression, TypeKind.violations, objectExpression, propertyViolations,
        Property.fieldExpression, bind_assoc]
      apply (type.reports_expression scope (path ++ "." ++ name)).bind
      intro expression
      exact (reports_fieldExpressions scope path rest).bind_pure
  | .array item => (item.reports_expression scope path).map _
  | .reference name => by
      rw [TypeKind.expression, TypeKind.violations, isReference_eq_not_isMalformed]
      cases isMalformed name with
      | false => exact Reports.pure _
      | true => exact Reports.throw _ []
  | .choices [] => Reports.throw _ []
  | .choices (first :: rest) => by
      rw [TypeKind.expression, TypeKind.violations, unionExpression, choiceViolations]
      apply (first.reports_expression scope path).bind
      intro expression
      exact (reports_alternativeExpressions scope path rest).bind_pure
  | .function function => function.reports_expression scope path
  | .string | .integer | .number | .boolean | .any | .binary | .object => Reports.pure _

theorem Function.reports_expression (scope : Scope) (path : String) (function : Function) :
    Reports (function.expression scope path)
      (function.violations scope.space (path ++ "." ++ function.name)) :=
  match function with
  | ⟨name, parameters, returns, description, deprecated⟩ => by
      rw [Function.expression, Function.violations]
      apply (reports_parameterExpressions scope (path ++ "." ++ name) parameters).bind
      intro expressions
      exact (reports_resultExpression scope (path ++ "." ++ name) returns).bind_pure

theorem reports_fieldExpressions (scope : Scope) (path : String) (properties : List Property) :
    Reports (fieldExpressions scope path properties)
      (propertyViolations scope.space path properties) :=
  match properties with
  | [] => Reports.pure _
  | ⟨name, type, optional, description, jsexterns⟩ :: rest => by
      rw [fieldExpressions, propertyViolations, Property.fieldExpression, bind_assoc]
      apply (type.reports_expression scope (path ++ "." ++ name)).bind
      intro expression
      exact (reports_fieldExpressions scope path rest).bind_pure

theorem reports_parameterExpressions (scope : Scope) (path : String)
    (parameters : List Property) :
    Reports (parameterExpressions scope path parameters)
      (propertyViolations scope.space path parameters) :=
  match parameters with
  | [] => Reports.pure _
  | ⟨name, type, optional, description, jsexterns⟩ :: rest => by
      rw [parameterExpressions, propertyViolations]
      apply (type.reports_expression scope (path ++ "." ++ name)).bind
      intro expression
      exact (reports_parameterExpressions scope path rest).bind_pure

theorem reports_alternativeExpressions (scope : Scope) (path : String) (choices : List TypeUse) :
    Reports (alternativeExpressions scope path choices)
      (choiceViolations scope.space path choices) :=
  match choices with
  | [] => Reports.pure _
  | first :: rest => by
      rw [alternativeExpressions, choiceViolations]
      apply (first.reports_expression scope path).bind
      intro expression
      exact (reports_alternativeExpressions scope path rest).bind_pure

theorem reports_resultExpression (scope : Scope) (path : String) (returns : Option Return) :
    Reports (resultExpression scope path returns) (returnViolations scope.space path returns) :=
  match returns with
  | none => Reports.pure _
  | some ⟨type, _⟩ => type.reports_expression scope path

end

theorem reports_objectExpression_cons (scope : Scope) (path : String) (first : Property)
    (rest : List Property) :
    Reports (objectExpression scope path (first :: rest))
      (propertyViolations scope.space path (first :: rest)) := by
  have whole := TypeKind.reports_expression scope path (.inlineObject (first :: rest))
  rwa [TypeKind.expression, TypeKind.violations] at whole

theorem reports_unionExpression_cons (scope : Scope) (path : String) (first : TypeUse)
    (rest : List TypeUse) :
    Reports (unionExpression scope path (first :: rest))
      (choiceViolations scope.space path (first :: rest)) := by
  have whole := TypeKind.reports_expression scope path (.choices (first :: rest))
  rwa [TypeKind.expression, TypeKind.violations] at whole

/-! ## Declarations report the violations in their entities -/

theorem propertyViolations_eq_flatMap (space path : String) (properties : List Property) :
    propertyViolations space path properties =
      properties.flatMap fun property =>
        property.type.violations space (path ++ "." ++ property.name) := by
  induction properties with
  | nil => rfl
  | cons property rest ih =>
      obtain ⟨name, type, optional, description, jsexterns⟩ := property
      rw [propertyViolations, ih, List.flatMap_cons]

namespace Site

theorem reports_parameterItem (site : Site) (path : String) (parameter : Property) :
    Reports (site.parameterItem path parameter)
      (parameter.type.violations site.scope.space (path ++ "." ++ parameter.name)) := by
  rw [parameterItem, TypeUse.expressionIn]
  exact ((parameter.type.reports_expression site.scope _).map _).bind_pure

theorem reports_returnItems (site : Site) (path : String) (returns : Option Return) :
    Reports (site.returnItems path returns) (returnViolations site.scope.space path returns) :=
  match returns with
  | none => Reports.pure _
  | some ⟨type, _⟩ => ((type.reports_expression site.scope path).map _).bind_pure

theorem reports_functionDeclaration (site : Site) (target path : String) (function : Function) :
    Reports (site.functionDeclaration target path function)
      (function.violations site.scope.space path) := by
  obtain ⟨name, parameters, returns, description, deprecated⟩ := function
  rw [functionDeclaration, Function.violations, propertyViolations_eq_flatMap]
  apply (Reports.mapM (site.reports_parameterItem path) parameters).bind
  intro items
  exact (site.reports_returnItems path returns).bind_pure

theorem reports_propertyDeclaration (site : Site) (type : TypeDefinition) (property : Property) :
    Reports (site.propertyDeclaration type property)
      (property.memberViolations site.scope.space type.name) := by
  rw [propertyDeclaration, Property.memberViolations]
  cases property.jsexterns with
  | some literal => exact Reports.pure _
  | none =>
      have expression :=
        (property.type.reports_expression site.scope (type.name ++ "." ++ property.name)).map
          (Slot.field.place property.optional)
      exact expression.bind_pure

theorem reports_methodDeclaration (site : Site) (type : TypeDefinition) (method : Function) :
    Reports (site.methodDeclaration type method)
      (method.violations site.scope.space (type.name ++ "." ++ method.name)) :=
  site.reports_functionDeclaration _ _ method

theorem reports_typeBlock (site : Site) (type : TypeDefinition) :
    Reports (site.typeBlock type) (type.violations site.scope.space) := by
  rw [typeBlock, TypeDefinition.violations]
  cases type.definition with
  | enumeration values =>
      cases values with
      | nil => exact Reports.throw _ []
      | cons value rest => exact Reports.pure _
  | record properties functions =>
      cases functions with
      | nil =>
          cases properties with
          | nil => exact Reports.throw _ []
          | cons first rest =>
              exact (reports_objectExpression_cons site.scope type.name first rest).bind_pure
      | cons method more =>
          -- The properties of the prototype are declared before the methods.
          have members := Reports.mapM (site.reports_propertyDeclaration type) properties
          have methods := Reports.mapM (site.reports_methodDeclaration type) (method :: more)
          exact members.bind fun declared => methods.bind_pure
  | choice choices =>
      cases choices with
      | nil => exact Reports.throw _ []
      | cons first rest =>
          exact (reports_unionExpression_cons site.scope type.name first rest).bind_pure
  | «alias» target => exact (target.reports_expression site.scope type.name).bind_pure

theorem reports_entityBlock (site : Site) (entity : Entity) :
    Reports (site.entityBlock entity) (entity.violations site.scope.space) := by
  cases entity with
  | type declared => exact site.reports_typeBlock declared
  | function declared => exact (site.reports_functionDeclaration _ _ declared).map _
  | event declared => exact Reports.pure _

end Site

/-! ## Generation reports the violations in its namespace -/

/-- Walking the names with those seen so far finds the first one that stands at an
earlier place too. -/
theorem firstRepeated?_eq_find? (seen earlier rest : List String)
    (same : ∀ name, name ∈ seen ↔ name ∈ earlier) :
    firstRepeated? seen rest =
      ((rest.zipIdx earlier.length).find? fun (name, index) =>
        ((earlier ++ rest).take index).contains name).map Prod.fst := by
  induction rest generalizing seen earlier with
  | nil => rfl
  | cons name rest ih =>
      rw [firstRepeated?, List.zipIdx_cons, List.find?_cons]
      simp only [List.take_left]
      by_cases repeated : name ∈ earlier
      · have found : seen.contains name = true := by simpa using (same name).mpr repeated
        rw [if_pos found]
        simp [repeated]
      · have fresh : ¬seen.contains name = true := by simpa [same name] using repeated
        have longer : ∀ other, other ∈ name :: seen ↔ other ∈ earlier ++ [name] := by
          intro other
          simp [same other, or_comm]
        have later := ih (name :: seen) (earlier ++ [name]) longer
        rw [if_neg fresh, later]
        simp [repeated]

theorem Namespace.names_eq_map_entities (space : Namespace) :
    space.entities.map Entity.name = space.names := by
  simp [Namespace.entities, Namespace.names, Function.comp_def, Entity.name]

theorem Namespace.reports_checkNames (space : Namespace) :
    Reports space.checkNames
      ((firstRepetition? space.names).map (Defect.repeatedName space.name)).toList := by
  have found := firstRepeated?_eq_find? [] [] space.names (fun _ => Iff.rfl)
  rw [Namespace.checkNames, Namespace.names_eq_map_entities, found]
  change Reports (match firstRepetition? space.names with
    | some name => throw (Defect.repeatedName space.name name)
    | none => return ()) _
  cases firstRepetition? space.names with
  | some name => exact Reports.throw _ []
  | none => exact Reports.pure ()

/-- Generation fails exactly if there is a violation, and then with the first one. -/
theorem Generator.reports_generate (generator : Generator) (space : Namespace) :
    Reports (generator.generate space)
      (((firstRepetition? space.names).map (Defect.repeatedName space.name)).toList ++
        space.violations) := by
  have names := space.reports_checkNames
  have blocks := Reports.mapM (generator.site space).reports_entityBlock space.entities
  rw [Generator.generate, Generator.listing]
  exact (names.bind fun _ => blocks.bind_pure).bind_pure

theorem Generator.generate_eq_error_iff (generator : Generator) (space : Namespace)
    (defect : Defect) :
    generator.generate space = .error defect ↔ space.firstViolation? = some defect := by
  rw [(generator.reports_generate space).eq_error_iff, Namespace.firstViolation?]
  cases firstRepetition? space.names with
  | some name => simp
  | none => simp

end Externs
