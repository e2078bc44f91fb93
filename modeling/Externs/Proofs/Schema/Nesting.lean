import Externs.Compile
import Externs.Proofs.Json.Yields
import Externs.Proofs.Schema.Shape

/-!
# How deep compiled types nest

The reader enters only so many brackets, and each node in a node costs at least one of them.
Lowering makes at most one type of a node, so no chain of types in a compiled model is
longer than the brackets that are left for nodes.
-/

set_option autoImplicit false

namespace Externs

/-! ## Types in types -/

def Function.signature (function : Function) : List TypeUse :=
  function.parameters.map (·.type) ++ (function.returns.map (·.type)).toList

/-- The types that a type is made of. -/
def TypeKind.parts : TypeKind → List TypeUse
  | .inlineObject fields => fields.map (·.type)
  | .array item => [item]
  | .choices types => types
  | .function callback => callback.signature
  | .string | .integer | .number | .boolean | .any | .binary | .object | .reference _ => []

def TypeUse.Holds (outer inner : TypeUse) : Prop :=
  inner ∈ outer.kind.parts

/-- The types that a definition is made of. -/
def Definition.uses : Definition → List TypeUse
  | .enumeration _ => []
  | .record properties functions =>
      properties.map (·.type) ++ functions.flatMap Function.signature
  | .choice types => types
  | .alias target => [target]

def Namespace.uses (space : Namespace) : List TypeUse :=
  (space.types.flatMap fun type => type.definition.uses) ++
    space.functions.flatMap Function.signature ++
    space.events.flatMap fun event => event.parameters.map (·.type)

/-- The types of a namespace, at any depth. -/
inductive Namespace.Mentions (space : Namespace) : TypeUse → Prop
  | use {type : TypeUse} (used : type ∈ space.uses) : Mentions space type
  | part {outer inner : TypeUse} (mentioned : Mentions space outer) (holds : outer.Holds inner) :
      Mentions space inner

/-- No chain of types that starts with the type is longer than the depth. -/
def TypeUse.Within : Nat → TypeUse → Prop
  | 0, _ => False
  | depth + 1, type => ∀ part ∈ type.kind.parts, Within depth part

namespace TypeUse.Within

theorem succ {depth : Nat} {type : TypeUse} (within : type.Within depth) :
    type.Within (depth + 1) := by
  induction depth generalizing type with
  | zero => cases within
  | succ depth ih => exact fun part member => ih (within part member)

theorem part {depth : Nat} {outer inner : TypeUse} (within : outer.Within depth)
    (holds : outer.Holds inner) : inner.Within depth := by
  cases depth with
  | zero => cases within
  | succ depth => exact succ (within inner holds)

theorem length_le {depth : Nat} {first : TypeUse} {chain : List TypeUse}
    (within : first.Within depth) (nested : List.IsChain TypeUse.Holds (first :: chain)) :
    (first :: chain).length ≤ depth := by
  induction chain generalizing depth first with
  | nil =>
      cases depth with
      | zero => cases within
      | succ depth => exact Nat.succ_le_succ (Nat.zero_le depth)
  | cons second chain ih =>
      cases depth with
      | zero => cases within
      | succ depth =>
          obtain ⟨holds, later⟩ := List.isChain_cons_cons.mp nested
          exact Nat.succ_le_succ (ih (within second holds) later)

end TypeUse.Within

namespace Schema

open Json Json.Reader

/-! ## Nodes in nodes -/

/-- What holds of all nodes that a node is made of. -/
structure Node.Each (holds : Node → Prop) (node : Node) : Prop where
  properties : ∀ properties ∈ node.properties, ∀ property ∈ properties, holds property.2
  items : ∀ item ∈ node.items, holds item
  choices : ∀ choices ∈ node.choices, ∀ choice ∈ choices, holds choice
  parameters : ∀ parameters ∈ node.parameters, ∀ parameter ∈ parameters, holds parameter
  returns : ∀ returns ∈ node.returns, holds returns
  functions : ∀ functions ∈ node.functions, ∀ function ∈ functions, holds function

theorem Node.each_initial (holds : Node → Prop) : Node.Each holds {} := by
  constructor <;> intro part given <;> cases given

theorem Node.Each.imp {holds later : Node → Prop} {node : Node} (each : node.Each holds)
    (weaker : ∀ node, holds node → later node) : node.Each later where
  properties list given property member := weaker _ (each.properties list given property member)
  items item given := weaker _ (each.items item given)
  choices list given choice member := weaker _ (each.choices list given choice member)
  parameters list given parameter member := weaker _ (each.parameters list given parameter member)
  returns node given := weaker _ (each.returns node given)
  functions list given function member := weaker _ (each.functions list given function member)

/-- No chain of nodes that starts with the node is longer than the depth. -/
def Node.Within : Nat → Node → Prop
  | 0, _ => False
  | depth + 1, node => node.Each (Within depth)

theorem Node.Within.succ {depth : Nat} {node : Node} (within : node.Within depth) :
    node.Within (depth + 1) := by
  induction depth generalizing node with
  | zero => cases within
  | succ depth ih => exact Node.Each.imp within fun _ known => ih known

/-- A field changes the nodes of its own and leaves the others. -/
theorem NodeField.yields_read {inside : Inside} {holds : Node → Prop}
    (same : Yields inside.node holds) (deeper : ∀ reader ∈ inside.deeperNode, Yields reader holds)
    (field : NodeField) :
    Yields (field.read inside) fun update =>
      ∀ node, node.Each holds → (update node).Each holds := by
  have facts {α : Type} {reader : Reader α} {change : α → Facts → Facts} :
      Yields (reader >>= fun value => pure (Node.modifyFacts (change value)))
        fun update => ∀ node, node.Each holds → (update node).Each holds :=
    .after fun _ => .pure fun _ known => { known with }
  cases field with
  | id | name | type | reference | description | optional | nullable | deprecated | jsexterns
  | values | additionalProperties => exact facts
  | properties =>
      exact (Yields.object _ deeper).map fun found each node known =>
        { known with properties := by simpa using each }
  | items =>
      exact (Yields.optional same).map fun found each node known => { known with items := each }
  | choices =>
      exact (Yields.optional (Yields.list deeper)).map fun found each node known =>
        { known with choices := each }
  | parameters =>
      exact (Yields.optional (Yields.list deeper)).map fun found each node known =>
        { known with parameters := each }
  | returns =>
      exact (Yields.optional same).map fun found each node known => { known with returns := each }
  | functions =>
      exact (Yields.optional (Yields.list deeper)).map fun found each node known =>
        { known with functions := each }

/-- A node enters a bracket, and the nodes in it have one less to enter. -/
theorem within_node (depth : Nat) : Yields (node depth) (Node.Within depth) := by
  induction depth using node.induct with
  | case1 => exact Yields.record nofun
  | case2 ih =>
      apply Yields.record
      rintro reads ⟨⟩
      exact ⟨Node.each_initial _, NodeField.yields_read ih nofun⟩
  | case3 depth same deeper =>
      apply Yields.record
      rintro reads ⟨⟩
      refine ⟨Node.each_initial _, NodeField.yields_read same ?_⟩
      rintro reader ⟨⟩
      exact fun text value rest read => (deeper text value rest read).succ

/-- The nodes of a namespace that stand in no other node. -/
def NamespaceNode.nodes (space : NamespaceNode) : List Node :=
  space.types ++ space.functions ++ space.events

theorem NamespaceField.yields_read {reader : Reader Node} {holds : Node → Prop}
    (yields : Yields reader holds) (field : NamespaceField) :
    Yields (field.read (some reader)) fun update => ∀ space : NamespaceNode,
      (∀ node ∈ space.nodes, holds node) → ∀ node ∈ (update space).nodes, holds node := by
  have listed : Yields (Reader.list (some reader)) fun nodes => ∀ node ∈ nodes, holds node :=
    .list fun other same => Option.some.inj same ▸ yields
  cases field with
  | name | description => exact .after fun _ => .pure fun space known => known
  | types =>
      refine listed.map fun found each space known => ?_
      simp only [NamespaceNode.nodes, List.forall_mem_append] at known ⊢
      exact ⟨⟨each, known.1.2⟩, known.2⟩
  | functions =>
      refine listed.map fun found each space known => ?_
      simp only [NamespaceNode.nodes, List.forall_mem_append] at known ⊢
      exact ⟨⟨known.1.1, each⟩, known.2⟩
  | events =>
      refine listed.map fun found each space known => ?_
      simp only [NamespaceNode.nodes, List.forall_mem_append] at known ⊢
      exact ⟨known.1, each⟩

theorem within_readDocument {text : List Char} {document : List NamespaceNode}
    (read : readDocument text = .ok document) :
    ∀ space ∈ document, ∀ node ∈ space.nodes, node.Within nodeDepth := by
  refine Yields.whole (Yields.list ?_) read
  rintro reader ⟨⟩
  apply Yields.record
  rintro reads ⟨⟩
  exact ⟨by simp [NamespaceField.fields, NamespaceNode.nodes],
    NamespaceField.yields_read (within_node nodeDepth)⟩

/-! ## Lowering -/

/-- What holds of every type that a node is lowered to. -/
def Node.Lowers (holds : TypeUse → Prop) (node : Node) : Prop :=
  ∀ path, Ensures (node.typeUse path) holds

section

variable {holds : TypeUse → Prop}

theorem ensures_typeUses {nodes : List Node} (each : ∀ node ∈ nodes, node.Lowers holds)
    (path : String) : Ensures (typeUses path nodes) fun types => ∀ type ∈ types, holds type := by
  induction nodes with
  | nil =>
      unfold typeUses
      exact .pure (by simp)
  | cons node rest ih =>
      obtain ⟨first, others⟩ := List.forall_mem_cons.mp each
      unfold typeUses
      refine (first path).bind fun type known => (ih others).bind fun types all => .pure ?_
      exact List.forall_mem_cons.mpr ⟨known, all⟩

theorem ensures_itemOf {items : Option Node} (each : ∀ item ∈ items, item.Lowers holds)
    (path : String) : Ensures (itemOf path items) holds := by
  unfold itemOf
  cases items with
  | none => exact .throw _ _
  | some item => exact each item rfl _

theorem ensures_namedFields {properties : List (String × Node)}
    (each : ∀ property ∈ properties, property.2.Lowers holds) (path : String) :
    Ensures (namedFields path properties) fun fields => ∀ field ∈ fields, holds field.type := by
  induction properties with
  | nil =>
      unfold namedFields
      exact .pure (by simp)
  | cons property rest ih =>
      obtain ⟨first, others⟩ := List.forall_mem_cons.mp each
      unfold namedFields
      refine (first _).bind fun type known => (ih others).bind fun fields all => .pure ?_
      exact List.forall_mem_cons.mpr ⟨known, all⟩

theorem ensures_fieldsOf {properties : Option (List (String × Node))}
    (each : ∀ list ∈ properties, ∀ property ∈ list, property.2.Lowers holds) (path : String) :
    Ensures (fieldsOf path properties) fun fields => ∀ field ∈ fields, holds field.type := by
  unfold fieldsOf
  cases properties with
  | none => exact .pure (by simp)
  | some list => exact ensures_namedFields (each list rfl) path

theorem ensures_namedParameters {parameters : List Node}
    (each : ∀ parameter ∈ parameters, parameter.Lowers holds) (path : String) :
    Ensures (namedParameters path parameters) fun fields =>
      ∀ field ∈ fields, holds field.type := by
  induction parameters with
  | nil =>
      unfold namedParameters
      exact .pure (by simp)
  | cons parameter rest ih =>
      obtain ⟨first, others⟩ := List.forall_mem_cons.mp each
      unfold namedParameters
      refine .after fun name => ?_
      refine (first _).bind fun type known => (ih others).bind fun fields all => .pure ?_
      exact List.forall_mem_cons.mpr ⟨known, all⟩

theorem ensures_parametersOf {parameters : Option (List Node)}
    (each : ∀ list ∈ parameters, ∀ parameter ∈ list, parameter.Lowers holds) (path : String) :
    Ensures (parametersOf path parameters) fun fields => ∀ field ∈ fields, holds field.type := by
  unfold parametersOf
  cases parameters with
  | none => exact .pure (by simp)
  | some list => exact ensures_namedParameters (each list rfl) path

theorem ensures_returnOf {node : Option Node} (each : ∀ returns ∈ node, returns.Lowers holds)
    (path : String) :
    Ensures (returnOf path node) fun returns => ∀ found ∈ returns, holds found.type := by
  unfold returnOf
  cases node with
  | none => exact .pure (by simp)
  | some node =>
      refine (each node rfl _).bind fun type known => .pure ?_
      simpa using known

theorem forall_mem_signature {facts : Facts} {name : String} {returns : Option Return}
    {parameters : List Property} (inParameters : ∀ field ∈ parameters, holds field.type)
    (inReturns : ∀ found ∈ returns, holds found.type) :
    ∀ type ∈ (facts.toFunction name returns parameters).signature, holds type := by
  intro type member
  rcases List.mem_append.mp member with inside | inside
  · obtain ⟨field, listed, rfl⟩ := List.mem_map.mp inside
    exact inParameters field listed
  · obtain ⟨found, given, rfl⟩ := Option.map_eq_some_iff.mp (Option.mem_toList.mp inside)
    exact inReturns found given

theorem Node.ensures_namedFunction {node : Node} (each : node.Each (Node.Lowers holds))
    (path : String) :
    Ensures (node.namedFunction path) fun function => ∀ type ∈ function.signature, holds type := by
  refine .after fun name => ?_
  refine (ensures_returnOf each.returns _).bind fun returns inReturns => ?_
  refine (ensures_parametersOf each.parameters _).bind fun parameters inParameters => .pure ?_
  exact forall_mem_signature inParameters inReturns

end

theorem TypeForm.parts_ofName {typeName : String} {kind : TypeKind}
    (form : TypeForm.ofName typeName = .plain kind) : kind.parts = [] := by
  unfold TypeForm.ofName at form
  split_ifs at form <;> cases form <;> rfl

theorem parts_of_plain {node : Node} {kind : TypeKind} (form : node.typeForm = .plain kind) :
    kind.parts = [] := by
  unfold Node.typeForm at form
  split at form
  · exact TypeForm.parts_ofName form
  · split at form <;> cases form

theorem parts_objectKind (fields : List Property) :
    (objectKind fields).parts = fields.map (·.type) := by
  cases fields <;> rfl

/-- A node is lowered to one type, and the types in that type come from the nodes in it. -/
theorem Node.Within.lowers {depth : Nat} {node : Node} (within : node.Within depth) :
    node.Lowers (TypeUse.Within depth) := by
  induction depth generalizing node with
  | zero => cases within
  | succ depth ih =>
      have each : node.Each (Node.Lowers (TypeUse.Within depth)) :=
        Node.Each.imp within fun _ known => ih known
      intro path type lowered
      have uses := Node.uses_of_typeUse lowered
      unfold TypeUse.Within
      generalize type.kind = kind at uses ⊢
      cases uses with
      | reference given => exact fun part member => nomatch member
      | choices given found =>
          exact ensures_typeUses (each.choices _ given) path _ found
      | plain form =>
          rw [parts_of_plain form]
          exact fun part member => nomatch member
      | array found => exact List.forall_mem_singleton.mpr (ensures_itemOf each.items path _ found)
      | function foundReturns foundParameters =>
          exact forall_mem_signature (ensures_parametersOf each.parameters _ _ foundParameters)
            (ensures_returnOf each.returns _ _ foundReturns)
      | object unreferenced form found =>
          rw [parts_objectKind]
          exact List.forall_mem_map.mpr (ensures_fieldsOf each.properties path _ found)

theorem Node.Within.each_lowers {depth : Nat} {node : Node} (within : node.Within depth) :
    node.Each (Node.Lowers (TypeUse.Within depth)) := by
  cases depth with
  | zero => cases within
  | succ depth =>
      exact Node.Each.imp within fun _ known path type lowered =>
        (Node.Within.lowers known path type lowered).succ

/-! ## Definitions -/

theorem Node.Within.ensures_definition {depth : Nat} {node : Node}
    (within : node.Within (depth + 1)) (path : String) :
    Ensures (node.definition path) fun definition =>
      ∀ type ∈ definition.uses, type.Within (depth + 1) := by
  have each := Node.Within.each_lowers within
  unfold Node.definition
  split
  · split
    · split
      · exact .pure (List.forall_mem_nil _)
      · exact .throw _ _
    · exact .pure (List.forall_mem_nil _)
  · next choices _ given =>
      exact (ensures_typeUses (each.choices choices given) path).bind fun types known => .pure known
  · split
    · have methods : ∀ method ∈ node.functions.getD [],
          Ensures (Node.namedFunction path method) fun function =>
            ∀ type ∈ function.signature, type.Within (depth + 1) := by
        intro method member
        cases given : node.functions with
        | none => simp [given] at member
        | some list =>
            have inside : method ∈ list := by simpa [given] using member
            have known : method.Within depth := Node.Each.functions within list given method inside
            exact Node.ensures_namedFunction (Node.Within.each_lowers known.succ) path
      refine (ensures_fieldsOf each.properties path).bind fun fields inFields => ?_
      refine (Ensures.mapM_forall methods).bind fun functions inFunctions => ?_
      split
      · exact .pure (List.forall_mem_singleton.mpr (List.forall_mem_nil _))
      · refine .pure (List.forall_mem_append.mpr ⟨List.forall_mem_map.mpr inFields, ?_⟩)
        intro type member
        obtain ⟨function, listed, inside⟩ := List.mem_flatMap.mp member
        exact inFunctions function listed type inside
    · exact (Node.Within.lowers within path).bind fun type known =>
        .pure (List.forall_mem_singleton.mpr known)

theorem NamespaceNode.ensures_lower {depth : Nat} {node : NamespaceNode}
    (within : ∀ part ∈ node.nodes, part.Within (depth + 1)) (file : String) :
    Ensures (node.lower file) fun space => ∀ type ∈ space.uses, type.Within (depth + 1) := by
  simp only [NamespaceNode.nodes, List.forall_mem_append] at within
  obtain ⟨⟨inTypes, inFunctions⟩, inEvents⟩ := within
  refine .after fun name => ?_
  have types : Ensures (node.types.mapM (Node.typeDefinition name)) fun types =>
      ∀ type ∈ types, ∀ use ∈ type.definition.uses, use.Within (depth + 1) := by
    refine .mapM_forall fun part member => .after fun id => ?_
    exact (inTypes part member).ensures_definition _ |>.bind fun definition known => .pure known
  have functions : Ensures (node.functions.mapM (Node.namedFunction name)) fun functions =>
      ∀ function ∈ functions, ∀ use ∈ function.signature, use.Within (depth + 1) := by
    refine .mapM_forall fun part member => ?_
    exact Node.ensures_namedFunction (Node.Within.each_lowers (inFunctions part member)) name
  have events : Ensures (node.events.mapM (Node.event name)) fun events =>
      ∀ event ∈ events, ∀ field ∈ event.parameters, field.type.Within (depth + 1) := by
    refine .mapM_forall fun part member => .after fun label => ?_
    have each := Node.Within.each_lowers (inEvents part member)
    exact (ensures_parametersOf each.parameters _).bind fun parameters known => .pure known
  refine types.bind fun types inTypes => functions.bind fun functions inFunctions => ?_
  refine events.bind fun events inEvents => .pure fun use member => ?_
  simp only [Namespace.uses, List.mem_append, List.mem_flatMap, List.mem_map] at member
  rcases member with (⟨type, listed, inside⟩ | ⟨function, listed, inside⟩) |
    ⟨event, listed, field, inside, rfl⟩
  · exact inTypes type listed use inside
  · exact inFunctions function listed use inside
  · exact inEvents event listed field inside

end Schema

/-! ## Compiled sources -/

theorem Namespace.Mentions.within {depth : Nat} {space : Namespace} {type : TypeUse}
    (within : ∀ use ∈ space.uses, use.Within depth) (mentioned : space.Mentions type) :
    type.Within depth := by
  induction mentioned with
  | use used => exact within _ used
  | part _ holds ih => exact ih.part holds

theorem within_of_compile {source fileName : String} {compiled : Compiled}
    (success : compile source fileName = .ok compiled) :
    ∀ space ∈ compiled.namespaces, ∀ use ∈ space.uses, use.Within 124 := by
  have compiles := compiles source fileName
  generalize compile source fileName = outcome at compiles success
  cases compiles with
  | unclosed _ | notAList _ _ | unreadable _ _ | noNamespaces _ _ => cases success
  | @lowered _ document _ read _ =>
      obtain ⟨namespaces, found, rfl⟩ := Outcome.map_eq_ok success
      intro space member
      obtain ⟨node, listed, lowered⟩ := Outcome.exists_of_mem_mapM found space member
      exact Schema.NamespaceNode.ensures_lower (Schema.within_readDocument read node listed)
        fileName space lowered

/-- No chain of types, each in the one before it, is longer than 124 in a compiled model. -/
theorem length_le_of_compile {source fileName : String} {compiled : Compiled}
    (success : compile source fileName = .ok compiled) {space : Namespace}
    (member : space ∈ compiled.namespaces) {chain : List TypeUse}
    (starts : ∀ type ∈ chain.head?, space.Mentions type) (nested : chain.IsChain TypeUse.Holds) :
    chain.length ≤ 124 := by
  cases chain with
  | nil => exact Nat.zero_le 124
  | cons first rest =>
      have within := (starts first rfl).within (within_of_compile success space member)
      exact within.length_le nested

/-- A source with a list of lists. -/
def nestedSource : String :=
  "[\x7b\"namespace\":\"a\",\"types\":[\x7b\"id\":\"T\",\"type\":\"array\"," ++
    "\"items\":\x7b\"type\":\"array\",\"items\":\x7b\"type\":\"any\"\x7d\x7d\x7d]\x7d]"

theorem length_le_nestedSource :
    ∃ compiled, compile nestedSource "a.json" = .ok compiled ∧
      ∃ space ∈ compiled.namespaces, ∃ outer middle inner : TypeUse,
        space.Mentions outer ∧ outer.Holds middle ∧ middle.Holds inner ∧
          [outer, middle, inner].length ≤ 124 := by
  have nests : (compile nestedSource "a.json").toOption.any (fun compiled =>
      compiled.namespaces.any fun space => space.uses.any fun outer =>
        outer.kind.parts.any fun middle => middle.kind.parts.any fun _ => true) = true := by
    decide +kernel
  cases success : compile nestedSource "a.json" with
  | error rejection =>
      rw [success] at nests
      cases nests
  | ok compiled =>
      simp only [success, Except.toOption, Option.any_some, List.any_eq_true] at nests
      obtain ⟨space, member, outer, used, middle, holds, inner, inside, -⟩ := nests
      have starts : ∀ type ∈ [outer, middle, inner].head?, space.Mentions type := by
        rintro type ⟨⟩
        exact .use used
      have nested : [outer, middle, inner].IsChain TypeUse.Holds :=
        .cons_cons holds (.cons_cons inside (.singleton inner))
      exact ⟨compiled, rfl, space, member, outer, middle, inner, starts outer rfl, holds, inside,
        length_le_of_compile success member starts nested⟩

end Externs
