import Externs.Pipeline
import Externs.Proofs.Model.Violations
import Externs.Proofs.Outcome

/-!
# The shape of compiled models

Lowering builds no record without members and no object without fields, and gives
choices and objects a definition of their own instead of another name. Two of the
defects that generation reports can therefore not be met in a compiled source.
-/

set_option autoImplicit false

namespace Externs

/-! ## Shaped models -/

def TypeKind.hasFields : TypeKind → Bool
  | .inlineObject properties => !properties.isEmpty
  | _ => true

/-- Whether a definition may be just another name for a type. Choices and objects with
fields have definitions of their own. -/
def TypeKind.isAliasable : TypeKind → Bool
  | .choices _ | .inlineObject _ => false
  | _ => true

def Definition.isShaped : Definition → Bool
  | .enumeration _ => true
  | .record properties functions =>
      (!properties.isEmpty || !functions.isEmpty) && allProperties TypeKind.hasFields properties &&
        functions.all (Function.all TypeKind.hasFields)
  | .choice choices => allChoices TypeKind.hasFields choices
  | .alias target => target.kind.isAliasable && target.all TypeKind.hasFields

/-- Whether all records of a namespace have members, all objects at any depth have
fields, and no other name stands for choices or an object with fields. -/
def Namespace.isShaped (space : Namespace) : Bool :=
  (space.types.all fun type => type.definition.isShaped) &&
    space.functions.all (Function.all TypeKind.hasFields) &&
    space.events.all fun event => allProperties TypeKind.hasFields event.parameters

/-! ## Lowering builds shaped models -/

namespace Schema

open Outcome

/-- What the use of a type is lowered to: by its reference, else by its choices, and by
the form of its type otherwise. -/
inductive Node.Uses (path : String) (node : Node) : TypeKind → Prop
  | reference {name : String} (given : node.facts.reference = some name) :
      Uses path node (.reference name)
  | choices {nodes : List Node} {types : List TypeUse} (given : node.choices = some nodes)
      (lowered : typeUses path nodes = .ok types) : Uses path node (.choices types)
  | plain {kind : TypeKind} (form : node.typeForm = .plain kind) : Uses path node kind
  | array {item : TypeUse} (lowered : itemOf path node.items = .ok item) :
      Uses path node (.array item)
  | function {name inner : String} {returns : Option Return} {parameters : List Property}
      (loweredReturns : returnOf inner node.returns = .ok returns)
      (loweredParameters : parametersOf inner node.parameters = .ok parameters) :
      Uses path node (.function (node.facts.toFunction name returns parameters))
  | object {fields : List Property} (unreferenced : node.facts.reference = none)
      (form : node.typeForm = .object) (lowered : fieldsOf path node.properties = .ok fields) :
      Uses path node (objectKind fields)

theorem Node.uses_of_typeUse {path : String} {node : Node} {type : TypeUse}
    (lowered : node.typeUse path = .ok type) : node.Uses path type.kind := by
  obtain ⟨facts, properties, items, choices, parameters, returns, functions⟩ := node
  rw [Node.typeUse.eq_def] at lowered
  dsimp only at lowered
  split at lowered
  · next name given =>
      cases lowered
      exact .reference given
  · next unreferenced =>
      split at lowered
      · obtain ⟨kind, found, lowered⟩ := bind_eq_ok lowered
        obtain ⟨types, inside, rfl⟩ := map_eq_ok found
        cases lowered
        exact .choices rfl inside
      · split at lowered
        · next form =>
            cases lowered
            exact .plain form
        · obtain ⟨kind, found, lowered⟩ := bind_eq_ok lowered
          obtain ⟨item, inside, rfl⟩ := map_eq_ok found
          cases lowered
          exact .array inside
        · obtain ⟨returns, foundReturns, lowered⟩ := bind_eq_ok lowered
          obtain ⟨parameters, foundParameters, lowered⟩ := bind_eq_ok lowered
          cases lowered
          exact .function foundReturns foundParameters
        · next form =>
            obtain ⟨kind, found, lowered⟩ := bind_eq_ok lowered
            obtain ⟨fields, inside, rfl⟩ := map_eq_ok found
            cases lowered
            exact .object unreferenced form inside
        · cases lowered
        · cases lowered

/-- What the form of a type with a name may be. -/
def TypeForm.Fits (typeName : String) : TypeForm → Prop
  | .plain kind => kind.isAliasable = true ∧ kind.all TypeKind.hasFields = true
  | .object => typeName = "object"
  | _ => True

theorem TypeForm.fits_ofName (typeName : String) : (TypeForm.ofName typeName).Fits typeName := by
  rw [TypeForm.ofName]
  iterate 6 refine iteInduction (fun _ => ⟨rfl, rfl⟩) fun _ => ?_
  iterate 2 refine iteInduction (fun _ => trivial) fun _ => ?_
  exact iteInduction id fun _ => trivial

theorem plain_cases {node : Node} {kind : TypeKind} (form : node.typeForm = .plain kind) :
    kind.isAliasable = true ∧ kind.all TypeKind.hasFields = true := by
  rw [Node.typeForm] at form
  split at form
  · next typeName _ =>
      have fits := TypeForm.fits_ofName typeName
      rwa [form] at fits
  · split at form <;> cases form

theorem isObject_of_typeForm {node : Node} (form : node.typeForm = .object) :
    node.isObject = true := by
  rw [Node.typeForm] at form
  split at form
  · next typeName named =>
      have fits := TypeForm.fits_ofName typeName
      rw [form] at fits
      rw [Node.isObject, named]
      exact beq_iff_eq.mpr fits
  · split at form
    · assumption
    · cases form

theorem all_objectKind {properties : List Property}
    (all : allProperties TypeKind.hasFields properties = true) :
    (objectKind properties).all TypeKind.hasFields = true := by
  cases properties with
  | nil => rfl
  | cons first rest => simpa [objectKind, TypeKind.all, TypeKind.hasFields] using all

mutual

theorem Node.all_typeUse {path : String} {node : Node} {type : TypeUse}
    (lowered : node.typeUse path = .ok type) : type.all TypeKind.hasFields = true := by
  obtain ⟨facts, properties, items, choices, parameters, returns, functions⟩ := node
  have uses := Node.uses_of_typeUse lowered
  obtain ⟨kind, nullable⟩ := type
  rw [TypeUse.all]
  cases uses with
  | reference given => rfl
  | choices given found =>
      cases choices with
      | none => cases given
      | some nodes =>
          rw [← Option.some.inj given] at found
          exact all_typeUses found
  | plain form => exact (plain_cases form).2
  | array found => exact all_itemOf found
  | function foundReturns foundParameters =>
      have signature := And.intro (all_parametersOf foundParameters) (all_returnOf foundReturns)
      simpa [TypeKind.all, TypeKind.hasFields, Facts.toFunction, Function.all] using signature
  | object unreferenced form found => exact all_objectKind (all_fieldsOf found)

theorem all_itemOf {path : String} {items : Option Node} {type : TypeUse}
    (lowered : itemOf path items = .ok type) : type.all TypeKind.hasFields = true := by
  match items with
  | none => cases lowered
  | some item =>
      rw [itemOf] at lowered
      exact item.all_typeUse lowered

theorem all_typeUses {path : String} {nodes : List Node} {types : List TypeUse}
    (lowered : typeUses path nodes = .ok types) : allChoices TypeKind.hasFields types = true := by
  match nodes with
  | [] =>
      cases lowered
      rfl
  | node :: rest =>
      rw [typeUses] at lowered
      obtain ⟨type, found, lowered⟩ := bind_eq_ok lowered
      obtain ⟨others, later, lowered⟩ := bind_eq_ok lowered
      cases lowered
      rw [allChoices, node.all_typeUse found, all_typeUses later]
      rfl

theorem all_fieldsOf {path : String} {properties : Option (List (String × Node))}
    {fields : List Property} (lowered : fieldsOf path properties = .ok fields) :
    allProperties TypeKind.hasFields fields = true := by
  match properties with
  | none =>
      cases lowered
      rfl
  | some properties =>
      rw [fieldsOf] at lowered
      exact all_namedFields lowered

theorem all_namedFields {path : String} {properties : List (String × Node)}
    {fields : List Property} (lowered : namedFields path properties = .ok fields) :
    allProperties TypeKind.hasFields fields = true := by
  match properties with
  | [] =>
      cases lowered
      rfl
  | (name, node) :: rest =>
      rw [namedFields] at lowered
      obtain ⟨type, found, lowered⟩ := bind_eq_ok lowered
      obtain ⟨others, later, lowered⟩ := bind_eq_ok lowered
      cases lowered
      rw [Node.toProperty, allProperties, node.all_typeUse found, all_namedFields later]
      rfl

theorem all_parametersOf {path : String} {nodes : Option (List Node)}
    {parameters : List Property} (lowered : parametersOf path nodes = .ok parameters) :
    allProperties TypeKind.hasFields parameters = true := by
  match nodes with
  | none =>
      cases lowered
      rfl
  | some nodes =>
      rw [parametersOf] at lowered
      exact all_namedParameters lowered

theorem all_namedParameters {path : String} {nodes : List Node} {parameters : List Property}
    (lowered : namedParameters path nodes = .ok parameters) :
    allProperties TypeKind.hasFields parameters = true := by
  match nodes with
  | [] =>
      cases lowered
      rfl
  | node :: rest =>
      rw [namedParameters] at lowered
      obtain ⟨name, -, lowered⟩ := bind_eq_ok lowered
      obtain ⟨type, found, lowered⟩ := bind_eq_ok lowered
      obtain ⟨others, later, lowered⟩ := bind_eq_ok lowered
      cases lowered
      rw [Node.toProperty, allProperties, node.all_typeUse found, all_namedParameters later]
      rfl

theorem all_returnOf {path : String} {node : Option Node} {returns : Option Return}
    (lowered : returnOf path node = .ok returns) : allReturn TypeKind.hasFields returns = true := by
  match node with
  | none =>
      cases lowered
      rfl
  | some node =>
      rw [returnOf] at lowered
      obtain ⟨type, found, lowered⟩ := bind_eq_ok lowered
      cases lowered
      rw [allReturn, node.all_typeUse found]

end

/-- What no definition of its own is made for is no object with fields. -/
theorem Node.isAliasable_typeUse {path : String} {node : Node} {type : TypeUse}
    (lowered : node.typeUse path = .ok type) (single : node.choices = none)
    (other : ¬(node.facts.reference.isNone && node.isObject) = true) :
    type.kind.isAliasable = true := by
  have uses := Node.uses_of_typeUse lowered
  generalize type.kind = kind at uses ⊢
  cases uses with
  | reference _ => rfl
  | choices given _ =>
      rw [single] at given
      cases given
  | plain form => exact (plain_cases form).1
  | array _ => rfl
  | function _ _ => rfl
  | object unreferenced form _ =>
      refine absurd ?_ other
      rw [unreferenced, isObject_of_typeForm form]
      rfl

theorem Node.all_namedFunction {path : String} {node : Node} {function : Function}
    (lowered : node.namedFunction path = .ok function) :
    function.all TypeKind.hasFields = true := by
  obtain ⟨name, -, lowered⟩ := bind_eq_ok lowered
  obtain ⟨returns, foundReturns, lowered⟩ := bind_eq_ok lowered
  obtain ⟨parameters, foundParameters, lowered⟩ := bind_eq_ok lowered
  cases lowered
  rw [Facts.toFunction, Function.all, all_parametersOf foundParameters, all_returnOf foundReturns]
  rfl

theorem Node.isShaped_definition {path : String} {node : Node} {definition : Definition}
    (lowered : node.definition path = .ok definition) : definition.isShaped = true := by
  rw [Node.definition] at lowered
  split at lowered
  · split at lowered
    · split at lowered
      · cases lowered
        rfl
      · cases lowered
    · cases lowered
      rfl
  · obtain ⟨types, found, lowered⟩ := bind_eq_ok lowered
    cases lowered
    exact all_typeUses found
  · next single =>
      split at lowered
      · obtain ⟨properties, foundProperties, lowered⟩ := bind_eq_ok lowered
        obtain ⟨functions, foundFunctions, lowered⟩ := bind_eq_ok lowered
        split at lowered
        · cases lowered
          rfl
        · next filled =>
            cases lowered
            have fields := all_fieldsOf foundProperties
            have methods : functions.all (Function.all TypeKind.hasFields) = true := by
              rw [List.all_eq_true]
              intro function member
              obtain ⟨method, -, found⟩ := exists_of_mem_mapM foundFunctions function member
              exact method.all_namedFunction found
            simpa [Definition.isShaped, fields, methods, ← Bool.not_and] using filled
      · next other =>
          obtain ⟨type, found, lowered⟩ := bind_eq_ok lowered
          cases lowered
          rw [Definition.isShaped, node.isAliasable_typeUse found single other,
            node.all_typeUse found]
          rfl

theorem Node.isShaped_typeDefinition {space : String} {node : Node} {type : TypeDefinition}
    (lowered : node.typeDefinition space = .ok type) : type.definition.isShaped = true := by
  obtain ⟨name, -, lowered⟩ := bind_eq_ok lowered
  obtain ⟨definition, found, built⟩ := bind_eq_ok lowered
  cases built
  exact node.isShaped_definition found

theorem Node.all_event {space : String} {node : Node} {event : Event}
    (lowered : node.event space = .ok event) :
    allProperties TypeKind.hasFields event.parameters = true := by
  obtain ⟨name, -, lowered⟩ := bind_eq_ok lowered
  obtain ⟨parameters, found, built⟩ := bind_eq_ok lowered
  cases built
  exact all_parametersOf found

theorem NamespaceNode.isShaped_lower {file : String} {node : NamespaceNode} {space : Namespace}
    (lowered : node.lower file = .ok space) : space.isShaped = true := by
  obtain ⟨name, -, lowered⟩ := bind_eq_ok lowered
  obtain ⟨types, foundTypes, lowered⟩ := bind_eq_ok lowered
  obtain ⟨functions, foundFunctions, lowered⟩ := bind_eq_ok lowered
  obtain ⟨events, foundEvents, lowered⟩ := bind_eq_ok lowered
  cases lowered
  simp only [Namespace.isShaped, Bool.and_eq_true, List.all_eq_true]
  refine ⟨⟨fun type member => ?_, fun function member => ?_⟩, fun event member => ?_⟩
  · obtain ⟨node, -, found⟩ := exists_of_mem_mapM foundTypes type member
    exact node.isShaped_typeDefinition found
  · obtain ⟨node, -, found⟩ := exists_of_mem_mapM foundFunctions function member
    exact node.all_namedFunction found
  · obtain ⟨node, -, found⟩ := exists_of_mem_mapM foundEvents event member
    exact node.all_event found

end Schema

/-! ## Defects of shaped models -/

/-- Whether a defect is a record without members or an object without fields. -/
def Defect.isShapeless : Defect → Bool
  | .emptyRecord _ _ | .emptyObject _ _ => true
  | _ => false

def Shapely (violations : List Defect) : Prop :=
  ∀ defect ∈ violations, defect.isShapeless = false

theorem Shapely.nil : Shapely [] :=
  List.forall_mem_nil _

theorem Shapely.append {first second : List Defect} (inFirst : Shapely first)
    (inSecond : Shapely second) : Shapely (first ++ second) :=
  List.forall_mem_append.mpr ⟨inFirst, inSecond⟩

theorem Shapely.flatMap {α : Type} {items : List α} {violations : α → List Defect}
    (each : ∀ item ∈ items, Shapely (violations item)) : Shapely (items.flatMap violations) := by
  intro defect member
  obtain ⟨item, inItems, member⟩ := List.mem_flatMap.mp member
  exact each item inItems defect member

mutual

theorem TypeUse.shapely_violations (space path : String) (type : TypeUse)
    (all : type.all TypeKind.hasFields = true) : Shapely (type.violations space path) :=
  match type with
  | ⟨kind, _⟩ => kind.shapely_violations space path all

theorem TypeKind.shapely_violations (space path : String) (kind : TypeKind)
    (all : kind.all TypeKind.hasFields = true) : Shapely (kind.violations space path) := by
  match kind with
  | .inlineObject [] => exact absurd all (by simp [TypeKind.all, TypeKind.hasFields])
  | .inlineObject (first :: rest) =>
      exact shapely_propertyViolations space path (first :: rest) all
  | .array item => exact item.shapely_violations space path all
  | .reference name =>
      rw [TypeKind.violations]
      split
      · exact List.forall_mem_singleton.mpr rfl
      · exact .nil
  | .choices [] => exact List.forall_mem_singleton.mpr rfl
  | .choices (first :: rest) => exact shapely_choiceViolations space path (first :: rest) all
  | .function function => exact function.shapely_violations space _ all
  | .string | .integer | .number | .boolean | .any | .binary | .object =>
      exact .nil

theorem Function.shapely_violations (space path : String) (function : Function)
    (all : function.all TypeKind.hasFields = true) : Shapely (function.violations space path) := by
  match function with
  | ⟨name, parameters, returns, description, deprecated⟩ =>
      obtain ⟨inParameters, inReturns⟩ := Bool.and_eq_true_iff.mp all
      rw [Function.violations]
      exact (shapely_propertyViolations space path parameters inParameters).append
        (shapely_returnViolations space path returns inReturns)

theorem shapely_propertyViolations (space path : String) (properties : List Property)
    (all : allProperties TypeKind.hasFields properties = true) :
    Shapely (propertyViolations space path properties) := by
  match properties with
  | [] => exact .nil
  | ⟨name, type, optional, description, jsexterns⟩ :: rest =>
      obtain ⟨inFirst, inRest⟩ := Bool.and_eq_true_iff.mp all
      rw [propertyViolations]
      exact (type.shapely_violations space _ inFirst).append
        (shapely_propertyViolations space path rest inRest)

theorem shapely_choiceViolations (space path : String) (choices : List TypeUse)
    (all : allChoices TypeKind.hasFields choices = true) :
    Shapely (choiceViolations space path choices) := by
  match choices with
  | [] => exact .nil
  | first :: rest =>
      obtain ⟨inFirst, inRest⟩ := Bool.and_eq_true_iff.mp all
      rw [choiceViolations]
      exact (first.shapely_violations space path inFirst).append
        (shapely_choiceViolations space path rest inRest)

theorem shapely_returnViolations (space path : String) (returns : Option Return)
    (all : allReturn TypeKind.hasFields returns = true) :
    Shapely (returnViolations space path returns) := by
  match returns with
  | none => exact .nil
  | some ⟨type, _⟩ => exact type.shapely_violations space path all

end

theorem TypeDefinition.shapely_violations (space : String) (type : TypeDefinition)
    (shaped : type.definition.isShaped = true) : Shapely (type.violations space) := by
  obtain ⟨name, description, deprecated, definition⟩ := type
  rw [TypeDefinition.violations]
  cases definition with
  | enumeration values =>
      cases values with
      | nil => exact List.forall_mem_singleton.mpr rfl
      | cons first rest => exact .nil
  | record properties functions =>
      simp only [Definition.isShaped, Bool.and_eq_true] at shaped
      obtain ⟨⟨filled, inProperties⟩, inFunctions⟩ := shaped
      cases functions with
      | nil =>
          cases properties with
          | nil => cases filled
          | cons first rest => exact shapely_propertyViolations space name _ inProperties
      | cons method more =>
          rw [allProperties_eq_all, List.all_eq_true] at inProperties
          rw [List.all_eq_true] at inFunctions
          have fields : Shapely (properties.flatMap (Property.memberViolations space name)) := by
            refine .flatMap fun property member => ?_
            rw [Property.memberViolations]
            split
            · exact .nil
            · exact property.type.shapely_violations space _ (inProperties property member)
          exact fields.append <| .flatMap fun method member =>
            method.shapely_violations space _ (inFunctions method member)
  | choice choices =>
      cases choices with
      | nil => exact List.forall_mem_singleton.mpr rfl
      | cons first rest => exact shapely_choiceViolations space name (first :: rest) shaped
  | «alias» target =>
      exact target.shapely_violations space name (Bool.and_eq_true_iff.mp shaped).2

theorem Namespace.shapely_violations {space : Namespace} (shaped : space.isShaped = true) :
    Shapely space.violations := by
  simp only [Namespace.isShaped, Bool.and_eq_true, List.all_eq_true] at shaped
  obtain ⟨⟨inTypes, inFunctions⟩, -⟩ := shaped
  refine .flatMap fun entity member => ?_
  simp only [List.mem_append, List.mem_map] at member
  obtain (⟨type, member, rfl⟩ | ⟨function, member, rfl⟩) | ⟨event, member, rfl⟩ := member
  · exact type.shapely_violations space.name (inTypes type member)
  · exact function.shapely_violations space.name _ (inFunctions function member)
  · exact .nil

theorem Generator.isShapeless_of_generate {generator : Generator} {space : Namespace}
    {defect : Defect} (shaped : space.isShaped = true)
    (failed : generator.generate space = .error defect) : defect.isShapeless = false := by
  have first := ((generator.reports_generate space).eq_error_iff defect).mp failed
  refine Shapely.append ?_ (Namespace.shapely_violations shaped) defect (List.mem_of_head? first)
  cases firstRepetition? space.names with
  | none => exact .nil
  | some name => exact List.forall_mem_singleton.mpr rfl

/-! ## Compiled sources -/

theorem exists_document_of_compile {source fileName : String} {compiled : Compiled}
    (success : compile source fileName = .ok compiled) :
    ∃ document : List Schema.NamespaceNode, document ≠ [] ∧
      document.mapM (Schema.NamespaceNode.lower fileName) = .ok compiled.namespaces := by
  have compiles := compiles source fileName
  generalize compile source fileName = outcome at compiles success
  cases compiles with
  | unclosed _ | notAList _ _ | unreadable _ _ | noNamespaces _ _ => cases success
  | @lowered _ document _ _ filled =>
      obtain ⟨namespaces, found, rfl⟩ := Outcome.map_eq_ok success
      exact ⟨document, filled, found⟩

theorem Compiled.exists_of_files {generator : Generator} {compiled : Compiled} {defect : Defect}
    (failed : compiled.files generator = .error defect) :
    ∃ space ∈ compiled.namespaces, generator.generate space = .error defect := by
  rw [Compiled.files] at failed
  generalize compiled.namespaces = spaces at failed ⊢
  induction spaces with
  | nil => cases failed
  | cons space rest ih =>
      rw [List.mapM_cons, Generator.file] at failed
      cases generated : generator.generate space with
      | error first =>
          rw [generated] at failed
          obtain rfl : first = defect := Except.error.inj failed
          exact ⟨space, List.mem_cons_self, generated⟩
      | ok text =>
          cases later : rest.mapM generator.file with
          | error next =>
              rw [generated, later] at failed
              obtain rfl : next = defect := Except.error.inj failed
              obtain ⟨other, member, found⟩ := ih later
              exact ⟨other, List.mem_cons_of_mem _ member, found⟩
          | ok files =>
              rw [generated, later] at failed
              cases failed

theorem declareFirst_of_compile {source fileName : String} {compiled : Compiled}
    {first : Namespace} {rest : List Namespace}
    (success : compile source fileName = .ok compiled)
    (spaces : compiled.namespaces = first :: rest) (generator : Generator) :
    declareFirst generator source fileName = (generator.generate first).mapError .model := by
  obtain ⟨_, namespaces⟩ := compiled
  obtain rfl : namespaces = first :: rest := spaces
  rw [declareFirst, compileSource, success]
  rfl

/-- A compiled source declares something, all its namespaces are shaped, and no record
or object without members is reported when they are declared. -/
theorem compile_isShaped {source fileName : String} {compiled : Compiled}
    (success : compile source fileName = .ok compiled) :
    compiled.namespaces ≠ [] ∧ (∀ space ∈ compiled.namespaces, space.isShaped = true) ∧
      ∀ generator : Generator,
        (∀ defect, compiled.files generator = .error defect → defect.isShapeless = false) ∧
        ∀ failure, declareFirst generator source fileName = .error failure →
          ∃ defect, failure = .model defect ∧ defect.isShapeless = false := by
  obtain ⟨document, filled, lowered⟩ := exists_document_of_compile success
  have shaped : ∀ space ∈ compiled.namespaces, space.isShaped = true := by
    intro space member
    obtain ⟨node, -, found⟩ := Outcome.exists_of_mem_mapM lowered space member
    exact node.isShaped_lower found
  obtain ⟨first, rest, spaces⟩ : ∃ first rest, compiled.namespaces = first :: rest := by
    cases document with
    | nil => exact absurd rfl filled
    | cons node others =>
        rw [List.mapM_cons] at lowered
        obtain ⟨first, -, lowered⟩ := Outcome.bind_eq_ok lowered
        obtain ⟨rest, -, lowered⟩ := Outcome.bind_eq_ok lowered
        exact ⟨first, rest, (Except.ok.inj lowered).symm⟩
  refine ⟨by simp [spaces], shaped, fun generator => ⟨?_, ?_⟩⟩
  · intro defect failed
    obtain ⟨space, member, found⟩ := Compiled.exists_of_files failed
    exact Generator.isShapeless_of_generate (shaped space member) found
  · intro failure failed
    rw [declareFirst_of_compile success spaces] at failed
    cases generated : generator.generate first with
    | ok text =>
        rw [generated] at failed
        cases failed
    | error defect =>
        rw [generated] at failed
        have inFirst : first ∈ compiled.namespaces := by simp [spaces]
        exact ⟨defect, (Except.error.inj failed).symm,
          Generator.isShapeless_of_generate (shaped first inFirst) generated⟩

/-- A source with an object type that has no fields and no methods. -/
def shapelessSource : String :=
  "[\x7b\"namespace\":\"a\",\"types\":[\x7b\"id\":\"T\",\"type\":\"object\"\x7d]\x7d]"

theorem isShaped_shapelessSource :
    ∃ compiled, compile shapelessSource "a.json" = .ok compiled ∧
      ∀ space ∈ compiled.namespaces, space.isShaped = true := by
  obtain ⟨compiled, success⟩ : ∃ compiled, compile shapelessSource "a.json" = .ok compiled := by
    have read : (compile shapelessSource "a.json").toBool = true := by decide +kernel
    cases found : compile shapelessSource "a.json" with
    | ok compiled => exact ⟨compiled, rfl⟩
    | error rejection =>
        rw [found] at read
        cases read
  exact ⟨compiled, success, (compile_isShaped success).2.1⟩

end Externs
