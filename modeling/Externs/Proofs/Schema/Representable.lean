import Externs.Proofs.Outcome
import Externs.Schema.Lowering

/-!
# Representable documents

Which documents have a model is said twice here without lowering them: as a condition
on their nodes, and as the list of everything that is wrong with them, in the order of
the document. Lowering succeeds exactly on the documents that meet the condition, and
reports the first entry of the list otherwise.
-/

set_option autoImplicit false

namespace Externs.Schema

/-! ## Representable nodes -/

/-- The types that are known by their name alone. -/
def plainTypes : List String :=
  ["string", "integer", "number", "double", "boolean", "any", "binary"]

def Node.ObjectLike (node : Node) : Prop :=
  node.facts.typeName = some "object" ∨
    node.facts.typeName = none ∧
      (node.properties.isSome ∨ node.facts.additionalProperties.isSome ∨ node.functions.isSome)

mutual

/-- A node that stands for the use of a type. Of its reference, its choices and its type
only the first that is given is looked at. -/
inductive Node.Usable : Node → Prop where
  | reference {node : Node} : node.facts.reference.isSome → Usable node
  | choices {node : Node} {choices : List Node} :
      node.facts.reference = none → node.choices = some choices →
      (∀ choice ∈ choices, Usable choice) → Usable node
  | plain {node : Node} {typeName : String} :
      node.facts.reference = none → node.choices = none →
      node.facts.typeName = some typeName → typeName ∈ plainTypes → Usable node
  | array {node item : Node} :
      node.facts.reference = none → node.choices = none →
      node.facts.typeName = some "array" → node.items = some item → Usable item → Usable node
  | function {node : Node} :
      node.facts.reference = none → node.choices = none →
      node.facts.typeName = some "function" → Callable node → Usable node
  | object {node : Node} :
      node.facts.reference = none → node.choices = none → node.ObjectLike →
      (∀ property ∈ node.properties.getD [], Usable property.2) → Usable node

/-- A node with the signature of a function. -/
inductive Node.Callable : Node → Prop where
  | intro {node : Node} :
      (∀ result ∈ node.returns, Usable result) →
      (∀ parameter ∈ node.parameters.getD [], parameter.facts.name.isSome) →
      (∀ parameter ∈ node.parameters.getD [], Usable parameter) → Callable node

end

/-- A node that defines a type. An enumeration comes before choices, and these before
an object, whose methods are looked at too. -/
inductive Node.Definable : Node → Prop where
  | enumeration {node : Node} :
      node.facts.values.isSome →
      (node.facts.typeName = none ∨ node.facts.typeName = some "string") → Definable node
  | choice {node : Node} {choices : List Node} :
      node.facts.values = none → node.choices = some choices →
      (∀ choice ∈ choices, choice.Usable) → Definable node
  | object {node : Node} :
      node.facts.values = none → node.choices = none → node.facts.reference = none →
      node.ObjectLike → (∀ property ∈ node.properties.getD [], property.2.Usable) →
      (∀ method ∈ node.functions.getD [], method.facts.name.isSome ∧ method.Callable) →
      Definable node
  | other {node : Node} :
      node.facts.values = none → node.choices = none →
      ¬(node.facts.reference = none ∧ node.ObjectLike) → node.Usable → Definable node

/-- A namespace that has a model. What an event gives back is not looked at. -/
structure NamespaceNode.Representable (node : NamespaceNode) : Prop where
  named : node.name.isSome
  types : ∀ type ∈ node.types, type.facts.id.isSome ∧ type.Definable
  functions : ∀ function ∈ node.functions, function.facts.name.isSome ∧ function.Callable
  events : ∀ event ∈ node.events, event.facts.name.isSome ∧
    ∀ parameter ∈ event.parameters.getD [], parameter.facts.name.isSome ∧ parameter.Usable

/-! ## Faults -/

/-- The faults of a part of the list at `list` that has no path without a name. -/
def namedFaults (list : String) (field : RequiredField) (name : Option String)
    (faults : String → List Rejection) : List Rejection :=
  match name with
  | none => [.missingField list field]
  | some name => faults name

/-- The path of a function that is used as a type at `path`: its own name, if it has
one, takes the place of the last part. -/
def functionPath (path : String) (name : Option String) : String :=
  part (splitPath path).1 (name.getD (splitPath path).2)

mutual

/-- Everything that keeps a node from standing for the use of a type. -/
def Node.faults (path : String) : Node → List Rejection
  | ⟨facts, properties, items, choices, parameters, returns, functions⟩ =>
      match facts.reference, choices, facts.typeName with
      | some _, _, _ => []
      | none, some choices, _ => choiceFaults path choices
      | none, none, some typeName =>
          if typeName ∈ plainTypes then []
          else if typeName = "array" then itemFaults path items
          else if typeName = "function" then
            returnFaults (functionPath path facts.name) returns ++
              parameterFaults (functionPath path facts.name) parameters
          else if typeName = "object" then fieldFaults path properties
          else [.unknownType path typeName]
      | none, none, none =>
          if properties.isSome || facts.additionalProperties.isSome || functions.isSome then
            fieldFaults path properties
          else [.missingField path .type]

def itemFaults (path : String) : Option Node → List Rejection
  | none => [.missingField path .items]
  | some item => item.faults (path ++ "[]")

def choiceFaults (path : String) : List Node → List Rejection
  | [] => []
  | choice :: rest => choice.faults path ++ choiceFaults path rest

def fieldFaults (path : String) : Option (List (String × Node)) → List Rejection
  | none => []
  | some properties => namedFieldFaults path properties

def namedFieldFaults (path : String) : List (String × Node) → List Rejection
  | [] => []
  | (name, node) :: rest => node.faults (part path name) ++ namedFieldFaults path rest

def parameterFaults (path : String) : Option (List Node) → List Rejection
  | none => []
  | some parameters => namedParameterFaults path parameters

def namedParameterFaults (path : String) : List Node → List Rejection
  | [] => []
  | node :: rest =>
      namedFaults (part path "parameters") .name node.facts.name
          (fun name => node.faults (part path name)) ++
        namedParameterFaults path rest

def returnFaults (path : String) : Option Node → List Rejection
  | none => []
  | some result => result.faults (part path "returns")

end

/-- What a function gives back comes before its parameters. -/
def Node.signatureFaults (path : String) (node : Node) : List Rejection :=
  returnFaults path node.returns ++ parameterFaults path node.parameters

def Node.functionFaults (path : String) (node : Node) : List Rejection :=
  namedFaults (part path "functions") .name node.facts.name fun name =>
    node.signatureFaults (part path name)

def Node.definitionFaults (path : String) (node : Node) : List Rejection :=
  match node.facts.values, node.choices with
  | some _, _ =>
      match node.facts.typeName with
      | none => []
      | some typeName => if typeName = "string" then [] else [.enumerationType path typeName]
  | none, some choices => choiceFaults path choices
  | none, none =>
      if node.facts.reference.isNone && node.isObject then
        fieldFaults path node.properties ++
          (node.functions.getD []).flatMap (Node.functionFaults path)
      else node.faults path

def Node.typeFaults (space : String) (node : Node) : List Rejection :=
  namedFaults (part space "types") .id node.facts.id fun name =>
    node.definitionFaults (part space name)

def Node.eventFaults (space : String) (node : Node) : List Rejection :=
  namedFaults (part space "events") .name node.facts.name fun name =>
    parameterFaults (part space name) node.parameters

/-- Everything that is wrong with a namespace: in its types, its functions and its
events. Without a name it has no paths. -/
def NamespaceNode.faults (file : String) (node : NamespaceNode) : List Rejection :=
  namedFaults file .namespace node.name fun name =>
    node.types.flatMap (Node.typeFaults name) ++
      node.functions.flatMap (Node.functionFaults name) ++
      node.events.flatMap (Node.eventFaults name)

/-! ## Lowering reports faults -/

theorem exists_plain_of_mem {typeName : String} (plain : typeName ∈ plainTypes) :
    ∃ kind, TypeForm.ofName typeName = .plain kind := by
  simp only [plainTypes, List.mem_cons, List.not_mem_nil, or_false] at plain
  rcases plain with rfl | rfl | rfl | rfl | rfl | rfl | rfl <;> exact ⟨_, rfl⟩

theorem ofName_eq_unknown {typeName : String} (named : typeName ∉ plainTypes)
    (array : typeName ≠ "array") (function : typeName ≠ "function")
    (object : typeName ≠ "object") : TypeForm.ofName typeName = .unknown typeName := by
  simp only [plainTypes, List.mem_cons, List.not_mem_nil, or_false, not_or] at named
  simp [TypeForm.ofName, named, array, function, object]

theorem reports_required {α : Type} {list : String} {field : RequiredField}
    (name : Option String) {next : String → Except Rejection α} {faults : String → List Rejection}
    (reports : ∀ name, Reports (next name) (faults name)) :
    Reports (required list field name >>= next) (namedFaults list field name faults) := by
  cases name with
  | none => exact Reports.throw _ []
  | some name => exact reports name

mutual

theorem Node.reports_typeUse (path : String) (node : Node) :
    Reports (node.typeUse path) (node.faults path) := by
  obtain ⟨⟨id, name, typeName, reference, description, optional, nullable, deprecated, jsexterns,
    values, additional⟩, properties, items, choices, parameters, returns, functions⟩ := node
  rw [Node.typeUse.eq_def, Node.faults.eq_def]
  dsimp only [Node.typeForm, Node.isObject]
  cases reference with
  | some name => exact Reports.pure _
  | none =>
      cases choices with
      | some choices => exact ((reports_typeUses path choices).map _).bind_pure
      | none =>
          cases typeName with
          | none =>
              by_cases object :
                  (properties.isSome || additional.isSome || functions.isSome) = true
              · simp only [object, if_true]
                exact ((reports_fieldsOf path properties).map _).bind_pure
              · simp only [object]
                exact Reports.throw _ []
          | some typeName =>
              dsimp only
              split_ifs with plain array function object
              · obtain ⟨kind, form⟩ := exists_plain_of_mem plain
                rw [form]
                exact Reports.pure _
              · subst array
                exact ((reports_itemOf path items).map _).bind_pure
              · subst function
                apply (reports_returnOf _ returns).bind
                intro returns
                exact (reports_parametersOf _ parameters).bind_pure
              · subst object
                exact ((reports_fieldsOf path properties).map _).bind_pure
              · rw [ofName_eq_unknown plain array function object]
                exact Reports.throw _ []

theorem reports_itemOf (path : String) (items : Option Node) :
    Reports (itemOf path items) (itemFaults path items) := by
  match items with
  | none => exact Reports.throw _ []
  | some item =>
      rw [itemOf, itemFaults]
      exact item.reports_typeUse _

theorem reports_typeUses (path : String) (nodes : List Node) :
    Reports (typeUses path nodes) (choiceFaults path nodes) := by
  match nodes with
  | [] => exact Reports.pure []
  | node :: rest =>
      rw [typeUses, choiceFaults]
      apply (node.reports_typeUse path).bind
      intro type
      exact (reports_typeUses path rest).bind_pure

theorem reports_fieldsOf (path : String) (properties : Option (List (String × Node))) :
    Reports (fieldsOf path properties) (fieldFaults path properties) := by
  match properties with
  | none => exact Reports.pure []
  | some properties =>
      rw [fieldsOf, fieldFaults]
      exact reports_namedFields path properties

theorem reports_namedFields (path : String) (properties : List (String × Node)) :
    Reports (namedFields path properties) (namedFieldFaults path properties) := by
  match properties with
  | [] => exact Reports.pure []
  | (name, node) :: rest =>
      rw [namedFields, namedFieldFaults]
      apply (node.reports_typeUse (part path name)).bind
      intro type
      exact (reports_namedFields path rest).bind_pure

theorem reports_parametersOf (path : String) (parameters : Option (List Node)) :
    Reports (parametersOf path parameters) (parameterFaults path parameters) := by
  match parameters with
  | none => exact Reports.pure []
  | some parameters =>
      rw [parametersOf, parameterFaults]
      exact reports_namedParameters path parameters

theorem reports_namedParameters (path : String) (nodes : List Node) :
    Reports (namedParameters path nodes) (namedParameterFaults path nodes) := by
  match nodes with
  | [] => exact Reports.pure []
  | node :: rest =>
      rw [namedParameters, namedParameterFaults]
      cases node.facts.name with
      | none => exact Reports.throw _ _
      | some name =>
          apply (node.reports_typeUse (part path name)).bind
          intro type
          exact (reports_namedParameters path rest).bind_pure

theorem reports_returnOf (path : String) (returns : Option Node) :
    Reports (returnOf path returns) (returnFaults path returns) := by
  match returns with
  | none => exact Reports.pure none
  | some result =>
      rw [returnOf, returnFaults]
      exact (result.reports_typeUse _).bind_pure

end

theorem Node.reports_namedFunction (path : String) (node : Node) :
    Reports (node.namedFunction path) (node.functionFaults path) := by
  apply reports_required
  intro name
  apply (reports_returnOf _ node.returns).bind
  intro returns
  exact (reports_parametersOf _ node.parameters).bind_pure

theorem Node.reports_definition (path : String) (node : Node) :
    Reports (node.definition path) (node.definitionFaults path) := by
  unfold Node.definition Node.definitionFaults
  cases node.facts.values with
  | some values =>
      cases node.facts.typeName with
      | none => exact Reports.pure _
      | some typeName =>
          dsimp only
          split
          · exact Reports.pure _
          · exact Reports.throw _ []
  | none =>
      cases node.choices with
      | some choices => exact (reports_typeUses path choices).bind_pure
      | none =>
          dsimp only
          split
          · apply (reports_fieldsOf path node.properties).bind
            intro properties
            -- Whether the object has members only decides which definition it is.
            have methods := Reports.mapM (Node.reports_namedFunction path) (node.functions.getD [])
            rw [← List.append_nil (List.flatMap _ _)]
            apply methods.bind
            intro functions
            split
            · exact Reports.pure _
            · exact Reports.pure _
          · exact (node.reports_typeUse path).bind_pure

theorem Node.reports_typeDefinition (space : String) (node : Node) :
    Reports (node.typeDefinition space) (node.typeFaults space) := by
  apply reports_required
  intro name
  exact (node.reports_definition _).bind_pure

theorem Node.reports_event (space : String) (node : Node) :
    Reports (node.event space) (node.eventFaults space) := by
  apply reports_required
  intro name
  exact (reports_parametersOf _ node.parameters).bind_pure

theorem NamespaceNode.reports_lower (file : String) (node : NamespaceNode) :
    Reports (node.lower file) (node.faults file) := by
  apply reports_required
  intro name
  rw [List.append_assoc]
  apply (Reports.mapM (Node.reports_typeDefinition name) node.types).bind
  intro types
  apply (Reports.mapM (Node.reports_namedFunction name) node.functions).bind
  intro functions
  exact (Reports.mapM (Node.reports_event name) node.events).bind_pure

/-! ## Nodes without faults -/

theorem namedFaults_eq_nil_iff {list : String} {field : RequiredField} (name : Option String)
    {faults : String → List Rejection} {good : Prop} (each : ∀ name, faults name = [] ↔ good) :
    namedFaults list field name faults = [] ↔ name.isSome ∧ good := by
  cases name with
  | none => simp [namedFaults]
  | some name => simpa [namedFaults] using each name

theorem Node.isObject_iff (node : Node) : node.isObject = true ↔ node.ObjectLike := by
  unfold Node.isObject Node.ObjectLike
  cases node.facts.typeName with
  | none => simp [or_assoc]
  | some typeName => simp

theorem Node.callable_iff (node : Node) :
    node.Callable ↔ (∀ result ∈ node.returns, result.Usable) ∧
      ∀ parameter ∈ node.parameters.getD [], parameter.facts.name.isSome ∧ parameter.Usable := by
  constructor
  · rintro ⟨result, named, usable⟩
    exact ⟨result, fun parameter member => ⟨named parameter member, usable parameter member⟩⟩
  · rintro ⟨result, parameters⟩
    exact ⟨result, fun parameter member => (parameters parameter member).1,
      fun parameter member => (parameters parameter member).2⟩

section

variable {node : Node} (unreferenced : node.facts.reference = none)

include unreferenced

theorem Node.usable_choices_iff {choices : List Node} (given : node.choices = some choices) :
    node.Usable ↔ ∀ choice ∈ choices, choice.Usable := by
  constructor
  · intro usable
    cases usable with
    | reference target => simp [unreferenced] at target
    | choices _ other usable =>
        obtain rfl : choices = _ := Option.some.inj (given.symm.trans other)
        exact usable
    | plain _ single | array _ single | function _ single | object _ single =>
        simp [given] at single
  · exact .choices unreferenced given

variable (single : node.choices = none)

include single

theorem Node.usable_untyped_iff (untyped : node.facts.typeName = none) :
    node.Usable ↔
      (node.properties.isSome ∨ node.facts.additionalProperties.isSome ∨ node.functions.isSome) ∧
        ∀ property ∈ node.properties.getD [], property.2.Usable := by
  constructor
  · intro usable
    cases usable with
    | reference target => simp [unreferenced] at target
    | choices _ given => simp [single] at given
    | plain _ _ typed | array _ _ typed | function _ _ typed => simp [untyped] at typed
    | object _ _ like usable => exact ⟨by simpa [ObjectLike, untyped] using like, usable⟩
  · rintro ⟨like, usable⟩
    exact .object unreferenced single (.inr ⟨untyped, like⟩) usable

theorem Node.usable_typed_iff {typeName : String} (typed : node.facts.typeName = some typeName) :
    node.Usable ↔
      typeName ∈ plainTypes ∨ (typeName = "array" ∧ ∃ item ∈ node.items, item.Usable) ∨
        (typeName = "function" ∧ node.Callable) ∨
        (typeName = "object" ∧ ∀ property ∈ node.properties.getD [], property.2.Usable) := by
  constructor
  · intro usable
    cases usable with
    | reference target => simp [unreferenced] at target
    | choices _ given => simp [single] at given
    | plain _ _ other plain =>
        obtain rfl : typeName = _ := Option.some.inj (typed.symm.trans other)
        exact .inl plain
    | array _ _ other given usable =>
        exact .inr (.inl ⟨Option.some.inj (typed.symm.trans other), _, given, usable⟩)
    | function _ _ other callable =>
        exact .inr (.inr (.inl ⟨Option.some.inj (typed.symm.trans other), callable⟩))
    | object _ _ like usable =>
        exact .inr (.inr (.inr ⟨by simpa [ObjectLike, typed] using like, usable⟩))
  · rintro (plain | ⟨rfl, item, given, usable⟩ | ⟨rfl, callable⟩ | ⟨rfl, usable⟩)
    · exact .plain unreferenced single typed plain
    · exact .array unreferenced single typed given usable
    · exact .function unreferenced single typed callable
    · exact .object unreferenced single (.inl typed) usable

end

mutual

theorem Node.faults_eq_nil_iff (path : String) (node : Node) :
    node.faults path = [] ↔ node.Usable := by
  obtain ⟨⟨id, name, typeName, reference, description, optional, nullable, deprecated, jsexterns,
    values, additional⟩, properties, items, choices, parameters, returns, functions⟩ := node
  rw [Node.faults.eq_def]
  dsimp only
  cases reference with
  | some target => exact iff_of_true rfl (.reference rfl)
  | none =>
      cases choices with
      | some choices =>
          rw [Node.usable_choices_iff rfl rfl]
          exact choiceFaults_eq_nil_iff path choices
      | none =>
          cases typeName with
          | none =>
              rw [Node.usable_untyped_iff rfl rfl rfl]
              dsimp only
              split_ifs with object
              · rw [fieldFaults_eq_nil_iff path properties]
                exact (and_iff_right (by simpa [or_assoc] using object)).symm
              · refine iff_of_false (by simp) fun usable => object ?_
                simpa [or_assoc] using usable.1
          | some typeName =>
              rw [Node.usable_typed_iff rfl rfl rfl]
              dsimp only
              split_ifs with plain array function object
              · simp [plain]
              · subst array
                rw [itemFaults_eq_nil_iff path items]
                simp [plainTypes]
              · subst function
                rw [List.append_eq_nil_iff, returnFaults_eq_nil_iff _ returns,
                  parameterFaults_eq_nil_iff _ parameters, Node.callable_iff]
                simp [plainTypes]
              · subst object
                rw [fieldFaults_eq_nil_iff path properties]
                simp [plainTypes]
              · simp [plain, array, function, object]

theorem itemFaults_eq_nil_iff (path : String) (items : Option Node) :
    itemFaults path items = [] ↔ ∃ item ∈ items, item.Usable := by
  match items with
  | none => simp [itemFaults]
  | some item =>
      rw [itemFaults, item.faults_eq_nil_iff]
      simp

theorem choiceFaults_eq_nil_iff (path : String) (choices : List Node) :
    choiceFaults path choices = [] ↔ ∀ choice ∈ choices, choice.Usable := by
  match choices with
  | [] => simp [choiceFaults]
  | choice :: rest =>
      rw [choiceFaults, List.append_eq_nil_iff, choice.faults_eq_nil_iff path,
        choiceFaults_eq_nil_iff path rest, List.forall_mem_cons]

theorem fieldFaults_eq_nil_iff (path : String) (properties : Option (List (String × Node))) :
    fieldFaults path properties = [] ↔ ∀ property ∈ properties.getD [], property.2.Usable := by
  match properties with
  | none => simp [fieldFaults]
  | some properties =>
      rw [fieldFaults]
      exact namedFieldFaults_eq_nil_iff path properties

theorem namedFieldFaults_eq_nil_iff (path : String) (properties : List (String × Node)) :
    namedFieldFaults path properties = [] ↔ ∀ property ∈ properties, property.2.Usable := by
  match properties with
  | [] => simp [namedFieldFaults]
  | (name, node) :: rest =>
      rw [namedFieldFaults, List.append_eq_nil_iff, node.faults_eq_nil_iff,
        namedFieldFaults_eq_nil_iff path rest, List.forall_mem_cons]

theorem parameterFaults_eq_nil_iff (path : String) (parameters : Option (List Node)) :
    parameterFaults path parameters = [] ↔
      ∀ parameter ∈ parameters.getD [], parameter.facts.name.isSome ∧ parameter.Usable := by
  match parameters with
  | none => simp [parameterFaults]
  | some parameters =>
      rw [parameterFaults]
      exact namedParameterFaults_eq_nil_iff path parameters

theorem namedParameterFaults_eq_nil_iff (path : String) (nodes : List Node) :
    namedParameterFaults path nodes = [] ↔
      ∀ node ∈ nodes, node.facts.name.isSome ∧ node.Usable := by
  match nodes with
  | [] => simp [namedParameterFaults]
  | node :: rest =>
      rw [namedParameterFaults, List.append_eq_nil_iff, namedParameterFaults_eq_nil_iff path rest,
        List.forall_mem_cons, namedFaults_eq_nil_iff]
      intro name
      exact node.faults_eq_nil_iff _

theorem returnFaults_eq_nil_iff (path : String) (returns : Option Node) :
    returnFaults path returns = [] ↔ ∀ result ∈ returns, result.Usable := by
  match returns with
  | none => simp [returnFaults]
  | some result =>
      rw [returnFaults, result.faults_eq_nil_iff]
      simp

end

theorem Node.functionFaults_eq_nil_iff (path : String) (node : Node) :
    node.functionFaults path = [] ↔ node.facts.name.isSome ∧ node.Callable := by
  apply namedFaults_eq_nil_iff
  intro name
  rw [Node.callable_iff, ← returnFaults_eq_nil_iff, ← parameterFaults_eq_nil_iff]
  exact List.append_eq_nil_iff

theorem Node.definitionFaults_eq_nil_iff (path : String) (node : Node) :
    node.definitionFaults path = [] ↔ node.Definable := by
  unfold Node.definitionFaults
  cases given : node.facts.values with
  | some values =>
      cases typed : node.facts.typeName with
      | none => exact iff_of_true rfl (.enumeration (by simp [given]) (.inl typed))
      | some typeName =>
          dsimp only
          split_ifs with string
          · subst string
            exact iff_of_true rfl (.enumeration (by simp [given]) (.inr typed))
          · refine iff_of_false (by simp) fun definable => ?_
            cases definable with
            | enumeration _ type => simp [typed, string] at type
            | choice absent | object absent | other absent => simp [given] at absent
  | none =>
      cases chosen : node.choices with
      | some choices =>
          rw [choiceFaults_eq_nil_iff]
          constructor
          · exact .choice given chosen
          · intro definable
            cases definable with
            | enumeration present => simp [given] at present
            | choice _ other usable =>
                obtain rfl : choices = _ := Option.some.inj (chosen.symm.trans other)
                exact usable
            | object _ single | other _ single => simp [chosen] at single
      | none =>
          dsimp only
          split_ifs with object
          · have ⟨unreferenced, like⟩ : node.facts.reference = none ∧ node.ObjectLike := by
              simpa [← Node.isObject_iff] using object
            rw [List.append_eq_nil_iff, fieldFaults_eq_nil_iff, List.flatMap_eq_nil_iff]
            simp only [Node.functionFaults_eq_nil_iff]
            constructor
            · rintro ⟨fields, methods⟩
              exact .object given chosen unreferenced like fields methods
            · intro definable
              cases definable with
              | enumeration present => simp [given] at present
              | choice _ present => simp [chosen] at present
              | object _ _ _ _ fields methods => exact ⟨fields, methods⟩
              | other _ _ different => exact absurd ⟨unreferenced, like⟩ different
          · have different : ¬(node.facts.reference = none ∧ node.ObjectLike) := by
              simpa [← Node.isObject_iff] using object
            rw [node.faults_eq_nil_iff]
            constructor
            · exact .other given chosen different
            · intro definable
              cases definable with
              | enumeration present => simp [given] at present
              | choice _ present => simp [chosen] at present
              | object _ _ unreferenced like => exact absurd ⟨unreferenced, like⟩ different
              | other _ _ _ usable => exact usable

theorem Node.typeFaults_eq_nil_iff (space : String) (node : Node) :
    node.typeFaults space = [] ↔ node.facts.id.isSome ∧ node.Definable := by
  apply namedFaults_eq_nil_iff
  intro name
  exact node.definitionFaults_eq_nil_iff _

theorem Node.eventFaults_eq_nil_iff (space : String) (node : Node) :
    node.eventFaults space = [] ↔ node.facts.name.isSome ∧
      ∀ parameter ∈ node.parameters.getD [], parameter.facts.name.isSome ∧ parameter.Usable := by
  apply namedFaults_eq_nil_iff
  intro name
  exact parameterFaults_eq_nil_iff _ node.parameters

theorem NamespaceNode.faults_eq_nil_iff (file : String) (node : NamespaceNode) :
    node.faults file = [] ↔ node.Representable := by
  unfold NamespaceNode.faults namedFaults
  cases named : node.name with
  | none =>
      refine iff_of_false (by simp) fun representable => ?_
      simpa [named] using representable.named
  | some name =>
      simp only [List.append_eq_nil_iff, List.flatMap_eq_nil_iff, Node.typeFaults_eq_nil_iff,
        Node.functionFaults_eq_nil_iff, Node.eventFaults_eq_nil_iff]
      constructor
      · rintro ⟨⟨types, functions⟩, events⟩
        exact ⟨by simp [named], types, functions, events⟩
      · rintro ⟨-, types, functions, events⟩
        exact ⟨⟨types, functions⟩, events⟩

/-- A document is lowered exactly if all its namespaces are representable, and otherwise
the first of its faults is reported. -/
theorem lower_iff_representable (file : String) (document : List NamespaceNode) :
    ((∃ spaces, document.mapM (NamespaceNode.lower file) = .ok spaces) ↔
        ∀ node ∈ document, node.Representable) ∧
      ∀ rejection, document.mapM (NamespaceNode.lower file) = .error rejection ↔
        (document.flatMap (NamespaceNode.faults file)).head? = some rejection := by
  have reports := Reports.mapM (NamespaceNode.reports_lower file) document
  refine ⟨?_, reports.eq_error_iff⟩
  rw [reports.exists_ok_iff, List.flatMap_eq_nil_iff]
  simp only [NamespaceNode.faults_eq_nil_iff]

end Externs.Schema
