import Externs.Proofs.Json.Reading
import Externs.Schema.Document
import Mathlib.Data.Nat.PSub

/-!
# Spellings of schema documents

The ways to write a schema document as JSON, with the fields of each record in any
order. The reader of documents reads each of them.
-/

set_option autoImplicit false

namespace Externs.Json

open Reader (Fields)

/-! ## Records in any order -/

section

variable {κ σ : Type} {fields : Fields κ σ}

/-- The tokens of a record. What is written for a field may be nothing at all. -/
def Spelled (fields : Fields κ σ) (written : κ → Option (List Token) → Prop)
    (tokens : List Token) : Prop :=
  ∃ entries : List (κ × List Token),
    (entries.map Prod.fst).Nodup ∧
    (∀ entry ∈ entries, written entry.1 (some entry.2)) ∧
    (∀ field ∉ entries.map Prod.fst, written field none) ∧
    tokens = objectTokens (entries.map fun entry => (fields.key entry.1, entry.2))

/-- Copying the fields of `source` one after the other: their order does not matter, and
all of them together give `source`. -/
structure Copies (fields : Fields κ σ) (copy : κ → σ → σ) (source : σ) : Prop where
  again : ∀ field record, copy field (copy field record) = copy field record
  swap : ∀ one two record, copy one (copy two record) = copy two (copy one record)
  all : ∀ record, fields.fields.foldl (fun record field => copy field record) record = source

namespace Copies

variable {copy : κ → σ → σ} {source : σ}

theorem copy_foldl (copies : Copies fields copy source) {field : κ} {record : σ}
    (fixed : copy field record = record) (order : List κ) :
    copy field (order.foldl (fun record field => copy field record) record) =
      order.foldl (fun record field => copy field record) record := by
  induction order generalizing record with
  | nil => exact fixed
  | cons other order ih =>
      refine ih ?_
      rw [copies.swap, fixed]

theorem copy_foldl_of_mem (copies : Copies fields copy source) {field : κ} {order : List κ}
    (member : field ∈ order) (record : σ) :
    copy field (order.foldl (fun record field => copy field record) record) =
      order.foldl (fun record field => copy field record) record := by
  induction order generalizing record with
  | nil => exact nomatch member
  | cons other order ih =>
      rcases List.mem_cons.mp member with rfl | later
      · exact copies.copy_foldl (copies.again field record) order
      · exact ih later (copy other record)

/-- It is enough to copy the fields that do not have their value from the start. -/
theorem foldl_eq (copies : Copies fields copy source) {order : List κ} {record : σ}
    (others : ∀ field ∉ order, copy field record = record) :
    order.foldl (fun record field => copy field record) record = source := by
  -- copying once more changes nothing, for copied fields and for the others
  have fixed (field : κ) : copy field (order.foldl (fun record field => copy field record) record) =
      order.foldl (fun record field => copy field record) record := by
    by_cases member : field ∈ order
    · exact copies.copy_foldl_of_mem member record
    · exact copies.copy_foldl (others field member) order
  exact (List.foldl_fixed' fixed fields.fields).symm.trans (copies.all _)

end Copies

theorem Spelled.reads {read : κ → Reader (σ → σ)} {copy : κ → σ → σ} {source : σ}
    {written : κ → Option (List Token) → Prop} {tokens : List Token}
    (spelled : Spelled fields written tokens) (copies : Copies fields copy source)
    (find : ∀ field, fields.find? (fields.key field) = some field)
    (reads : ∀ field part, written field (some part) → Reads (read field) part (copy field))
    (omitted : ∀ field, written field none → copy field fields.initial = fields.initial) :
    ReadsItem (fields.record (some read)) tokens source := by
  obtain ⟨entries, distinct, present, absent, rfl⟩ := spelled
  refine ⟨opens_objectTokens _, ?_⟩
  have result := reads_record find distinct fun entry member => reads _ _ (present entry member)
  have final := copies.foldl_eq fun field missing => omitted field (absent field missing)
  rw [List.foldl_map] at final
  rwa [final] at result

end

/-! ## Parts of a record -/

section

variable {α : Type}

/-- The reader reads whatever is written. -/
def Follows (reader : Reader α) (written : α → List Token → Prop) : Prop :=
  ∀ value tokens, written value tokens → ReadsItem reader tokens value

/-- A list with items in the given form, or in none if no bracket may be entered. -/
def Listed (item : Option (α → List Token → Prop)) (values : List α) (tokens : List Token) :
    Prop :=
  ∃ written ∈ item, ∃ parts, List.Forall₂ written values parts ∧ tokens = listTokens parts

/-- An object with its members in their order, which may repeat a name. -/
def Mapped (value : Option (α → List Token → Prop)) (members : List (String × α))
    (tokens : List Token) : Prop :=
  ∃ written ∈ value, ∃ parts,
    List.Forall₂ (fun member part => member.1 = part.1 ∧ written member.2 part.2) members parts ∧
    tokens = objectTokens parts

def TextWritten (text : String) (tokens : List Token) : Prop :=
  tokens = [.string text]

theorem follows_string : Follows Reader.string TextWritten := by
  rintro text _ rfl
  exact ⟨⟨_, _, rfl, rfl⟩, reads_string text⟩

theorem eq_none_of_rel {written : α → List Token → Prop} {value : Option α}
    (omitted : Option.Rel written value none) : value = none := by
  cases omitted
  rfl

theorem exists_of_rel {written : α → List Token → Prop} {value : Option α} {tokens : List Token}
    (given : Option.Rel written value (some tokens)) :
    ∃ content, value = some content ∧ written content tokens := by
  obtain ⟨written⟩ := given
  exact ⟨_, rfl, written⟩

theorem reads_optional_of_rel {reader : Reader α} {written : α → List Token → Prop}
    (follows : Follows reader written) {value : Option α} {tokens : List Token}
    (given : Option.Rel written value (some tokens)) :
    Reads (Reader.optional reader) tokens value := by
  obtain ⟨content, rfl, written⟩ := exists_of_rel given
  obtain ⟨opens, reads⟩ := follows content tokens written
  exact reads_optional reads opens

theorem follows_list {item : Option (Reader α)} {written : Option (α → List Token → Prop)}
    (follows : Option.Rel Follows item written) : Follows (Reader.list item) (Listed written) := by
  rintro values _ ⟨form, chosen, parts, each, rfl⟩
  cases follows with
  | none => exact nomatch chosen
  | some follows =>
      obtain rfl := Option.some.inj chosen
      exact ⟨opens_listTokens parts, reads_list (each.flip.imp fun _ _ => follows _ _)⟩

theorem follows_object {value : Option (Reader α)} {written : Option (α → List Token → Prop)}
    (follows : Option.Rel Follows value written) (expected : String) :
    Follows (Reader.object expected value) (Mapped written) := by
  rintro members _ ⟨form, chosen, parts, each, rfl⟩
  cases follows with
  | none => exact nomatch chosen
  | some follows =>
      obtain rfl := Option.some.inj chosen
      refine ⟨opens_objectTokens parts, reads_object (each.flip.imp ?_) expected⟩
      exact fun _ _ given => ⟨given.1.symm, (follows _ _ given.2).2⟩

end

end Externs.Json

namespace Externs.Schema

open Json (Reader Token Spelled Copies Follows Listed Mapped TextWritten Reads ReadsItem)

/-! ## Fields with a form of their own -/

/-- A flag is written as a truth value or as the text of one, and need not be written if
it does not hold. -/
inductive FlagWritten : Bool → Option (List Token) → Prop
  | boolean (flag : Bool) : FlagWritten flag (some [.boolean flag])
  | trueText : FlagWritten true (some [.string "true"])
  | falseText : FlagWritten false (some [.string "false"])
  | omitted : FlagWritten false none

inductive DeprecationWritten : Option String → Option (List Token) → Prop
  | message (text : String) : DeprecationWritten (some text) (some [.string text])
  | flag : DeprecationWritten (some "") (some [.boolean true])
  | denied : DeprecationWritten none (some [.boolean false])
  | null : DeprecationWritten none (some [.null])
  | omitted : DeprecationWritten none none

inductive EnumForm : EnumValue → Json → Prop
  | text (name : String) : EnumForm { name } (.string name)
  | object (name : String) : EnumForm { name } (.object [("name", .string name)])
  | described {name description : String} {members : List (String × Json)}
      (order : members.Perm [("name", .string name), ("description", .string description)]) :
      EnumForm { name, description := some description } (.object members)

def EnumWritten (depth : Nat) (entry : EnumValue) (tokens : List Token) : Prop :=
  ∃ json, EnumForm entry json ∧ json.Written depth tokens

theorem FlagWritten.eq_false {holds : Bool} (written : FlagWritten holds none) :
    holds = false := by
  cases written
  rfl

theorem DeprecationWritten.eq_none {message : Option String}
    (written : DeprecationWritten message none) : message = none := by
  cases written
  rfl

theorem reads_flag {holds : Bool} {tokens : List Token}
    (written : FlagWritten holds (some tokens)) (depth : Nat) :
    Reads (flag (Reader.value depth)) tokens holds := by
  cases written with
  | boolean => exact (Json.reads_value_boolean depth holds).bind_pure rfl
  | trueText => exact (Json.reads_value_string depth "true").bind_pure rfl
  | falseText => exact (Json.reads_value_string depth "false").bind_pure rfl

theorem reads_deprecation {message : Option String} {tokens : List Token}
    (written : DeprecationWritten message (some tokens)) (depth : Nat) :
    Reads (deprecation (Reader.value depth)) tokens message := by
  cases written with
  | message text =>
      have reads := Json.reads_optional (Json.reads_value_string depth text) ⟨_, _, rfl, rfl⟩
      exact reads.bind_pure rfl
  | flag =>
      have reads := Json.reads_optional (Json.reads_value_boolean depth true) ⟨_, _, rfl, rfl⟩
      exact reads.bind_pure rfl
  | denied =>
      have reads := Json.reads_optional (Json.reads_value_boolean depth false) ⟨_, _, rfl, rfl⟩
      exact reads.bind_pure rfl
  | null => exact (Json.reads_optional_null (Reader.value depth)).bind_pure rfl

theorem valuesOf_eq_of_perm {name : String} {members others : List (String × Json)} {json : Json}
    (order : members.Perm others) (once : valuesOf name others = [json]) :
    valuesOf name members = [json] := by
  have same : (valuesOf name members).Perm (valuesOf name others) :=
    (order.filter _).map Prod.snd
  rw [once] at same
  exact List.perm_singleton.mp same

theorem EnumForm.enumValue?_eq {entry : EnumValue} {json : Json} (form : EnumForm entry json) :
    enumValue? json = some entry := by
  cases form with
  | text name => rfl
  | object name => rfl
  | @described name description members order =>
      have named : valuesOf "name" members = [.string name] := valuesOf_eq_of_perm order rfl
      have described : valuesOf "description" members = [.string description] :=
        valuesOf_eq_of_perm order rfl
      simp only [enumValue?, named, described, Json.string]

theorem follows_enumValue (depth : Nat) :
    Follows (enumValue (Reader.value depth)) (EnumWritten depth) := by
  rintro entry tokens ⟨json, form, written⟩
  obtain ⟨opens, reads⟩ := Json.readsItem_value written
  refine ⟨opens, reads.bind_pure ?_⟩
  rw [form.enumValue?_eq]

/-! ## Nodes -/

/-- What is written for a field of `source`, with at most `depth` brackets open inside it.
The items of a list and the values of `properties` are one bracket deeper than the field. -/
def NodeField.Written (depth : Nat) (node : Node → List Token → Prop)
    (deeperNode : Option (Node → List Token → Prop)) (source : Node) :
    NodeField → Option (List Token) → Prop
  | .id => Option.Rel TextWritten source.facts.id
  | .name => Option.Rel TextWritten source.facts.name
  | .type => Option.Rel TextWritten source.facts.typeName
  | .reference => Option.Rel TextWritten source.facts.reference
  | .description => Option.Rel TextWritten source.facts.description
  | .optional => FlagWritten source.facts.optional
  | .nullable => FlagWritten source.facts.nullable
  | .deprecated => DeprecationWritten source.facts.deprecated
  | .jsexterns => Option.Rel TextWritten source.facts.jsexterns
  | .values => Option.Rel (Listed (depth.ppred.map EnumWritten)) source.facts.values
  | .properties => Option.Rel (Mapped deeperNode) source.properties
  | .additionalProperties => Option.Rel (Json.Written depth) source.facts.additionalProperties
  | .items => Option.Rel node source.items
  | .choices => Option.Rel (Listed deeperNode) source.choices
  | .parameters => Option.Rel (Listed deeperNode) source.parameters
  | .returns => Option.Rel node source.returns
  | .functions => Option.Rel (Listed deeperNode) source.functions

/-- A node with at most `depth` brackets open at the same time. -/
def Node.Written : (depth : Nat) → Node → List Token → Prop
  | 0, _, _ => False
  | 1, node, tokens =>
      Spelled NodeField.fields (NodeField.Written 0 (Node.Written 0) none node) tokens
  | depth + 2, node, tokens =>
      Spelled NodeField.fields
        (NodeField.Written (depth + 1) (Node.Written (depth + 1)) (some (Node.Written depth)) node)
        tokens

/-- Gives a node the value that `source` has for a field. -/
def NodeField.copy (source : Node) : NodeField → Node → Node
  | .id => Node.modifyFacts ({ · with id := source.facts.id })
  | .name => Node.modifyFacts ({ · with name := source.facts.name })
  | .type => Node.modifyFacts ({ · with typeName := source.facts.typeName })
  | .reference => Node.modifyFacts ({ · with reference := source.facts.reference })
  | .description => Node.modifyFacts ({ · with description := source.facts.description })
  | .optional => Node.modifyFacts ({ · with optional := source.facts.optional })
  | .nullable => Node.modifyFacts ({ · with nullable := source.facts.nullable })
  | .deprecated => Node.modifyFacts ({ · with deprecated := source.facts.deprecated })
  | .jsexterns => Node.modifyFacts ({ · with jsexterns := source.facts.jsexterns })
  | .values => Node.modifyFacts ({ · with values := source.facts.values })
  | .properties => ({ · with properties := source.properties })
  | .additionalProperties =>
      Node.modifyFacts ({ · with additionalProperties := source.facts.additionalProperties })
  | .items => ({ · with items := source.items })
  | .choices => ({ · with choices := source.choices })
  | .parameters => ({ · with parameters := source.parameters })
  | .returns => ({ · with returns := source.returns })
  | .functions => ({ · with functions := source.functions })

theorem NodeField.copies (source : Node) : Copies NodeField.fields (copy source) source where
  again := by
    intro field record
    cases field <;> rfl
  swap := by
    intro one two record
    cases one <;> cases two <;> rfl
  all := by
    intro record
    -- nodes hold nodes, so a node is its fields only by cases
    cases source
    simp only [NodeField.fields, List.foldl_cons, List.foldl_nil, copy, Node.modifyFacts]

theorem NodeField.find?_key (field : NodeField) :
    NodeField.fields.find? (NodeField.fields.key field) = some field := by
  cases field <;> rfl

section

variable {depth : Nat} {inside : Inside} {node : Node → List Token → Prop}
  {deeperNode : Option (Node → List Token → Prop)} {source : Node}

/-- The readers for what stands inside a node read what is written there. -/
structure Inside.Follows (inside : Inside) (depth : Nat) (node : Node → List Token → Prop)
    (deeperNode : Option (Node → List Token → Prop)) : Prop where
  value : inside.value = Reader.value depth
  deeperValue : inside.deeperValue = depth.ppred.map Reader.value
  node : Json.Follows inside.node node
  deeperNode : Option.Rel Json.Follows inside.deeperNode deeperNode

theorem follows_enumValues (depth : Nat) :
    Follows (Reader.list ((depth.ppred.map Reader.value).map enumValue))
      (Listed (depth.ppred.map EnumWritten)) := by
  apply Json.follows_list
  cases depth with
  | zero => exact .none
  | succ depth => exact .some (follows_enumValue depth)

theorem NodeField.reads (follows : inside.Follows depth node deeperNode) (field : NodeField)
    {tokens : List Token} (written : field.Written depth node deeperNode source (some tokens)) :
    Reads (field.read inside) tokens (field.copy source) := by
  have texts := @Json.reads_optional_of_rel _ _ _ Json.follows_string
  have nodes := @Json.reads_optional_of_rel _ _ _ follows.node
  have lists := @Json.reads_optional_of_rel _ _ _ (Json.follows_list follows.deeperNode)
  cases field with
  | id => exact (texts written).map _
  | name => exact (texts written).map _
  | type => exact (texts written).map _
  | reference => exact (texts written).map _
  | description => exact (texts written).map _
  | optional =>
      rw [NodeField.read, follows.value]
      exact (reads_flag written depth).map _
  | nullable =>
      rw [NodeField.read, follows.value]
      exact (reads_flag written depth).map _
  | deprecated =>
      rw [NodeField.read, follows.value]
      exact (reads_deprecation written depth).map _
  | jsexterns => exact (texts written).map _
  | values =>
      rw [NodeField.read, follows.deeperValue]
      exact (Json.reads_optional_of_rel (follows_enumValues depth) written).map _
  | properties =>
      obtain ⟨properties, given, mapped⟩ := Json.exists_of_rel written
      have reads := (Json.follows_object follows.deeperNode
        "an object mapping property names to schemas" properties tokens mapped).2
      rw [NodeField.copy, given]
      exact reads.map _
  | additionalProperties =>
      rw [NodeField.read, follows.value]
      exact (Json.reads_optional_of_rel (fun _ _ => Json.readsItem_value) written).map _
  | items => exact (nodes written).map _
  | choices => exact (lists written).map _
  | parameters => exact (lists written).map _
  | returns => exact (nodes written).map _
  | functions => exact (lists written).map _

theorem NodeField.copy_initial (field : NodeField)
    (written : field.Written depth node deeperNode source none) :
    field.copy source {} = {} := by
  cases field with
  | optional =>
      rw [NodeField.copy, written.eq_false]
      rfl
  | nullable =>
      rw [NodeField.copy, written.eq_false]
      rfl
  | deprecated =>
      rw [NodeField.copy, written.eq_none]
      rfl
  | properties | items | choices | parameters | returns | functions =>
      rw [NodeField.copy, Json.eq_none_of_rel written]
  | _ =>
      rw [NodeField.copy, Json.eq_none_of_rel written]
      rfl

theorem readsItem_node (follows : inside.Follows depth node deeperNode) {tokens : List Token}
    (spelled : Spelled NodeField.fields (NodeField.Written depth node deeperNode source) tokens) :
    ReadsItem (NodeField.fields.record (some (NodeField.read inside))) tokens source :=
  spelled.reads (NodeField.copies source) NodeField.find?_key
    (fun field _ => field.reads follows) NodeField.copy_initial

end

/-- Every node in brackets that are not too deep is read, by induction on the brackets
that may still be opened: a node needs one of them, and a list of nodes another. -/
theorem follows_node : ∀ depth, Follows (node depth) (Node.Written depth)
  | 0, _, _, written => written.elim
  | 1, _, _, written => by
      refine readsItem_node ⟨rfl, rfl, follows_node 0, .none⟩ ?_
      exact written
  | depth + 2, _, _, written => by
      refine readsItem_node ⟨rfl, rfl, follows_node (depth + 1), .some (follows_node depth)⟩ ?_
      exact written

/-! ## Documents -/

/-- A list that need not be written if it is empty. -/
def ListedOrOmitted (item : Option (Node → List Token → Prop)) (nodes : List Node) :
    Option (List Token) → Prop
  | none => nodes = []
  | some tokens => Listed item nodes tokens

def NamespaceField.Written (node : Option (Node → List Token → Prop)) (source : NamespaceNode) :
    NamespaceField → Option (List Token) → Prop
  | .name => Option.Rel TextWritten source.name
  | .description => Option.Rel TextWritten source.description
  | .types => ListedOrOmitted node source.types
  | .functions => ListedOrOmitted node source.functions
  | .events => ListedOrOmitted node source.events

/-- A namespace with at most `depth` brackets open at the same time. -/
def NamespaceNode.Written : (depth : Nat) → NamespaceNode → List Token → Prop
  | 0, _, _ => False
  | depth + 1, source, tokens =>
      Spelled NamespaceField.fields
        (NamespaceField.Written (depth.ppred.map Node.Written) source) tokens

/-- A document with at most `depth` brackets open at the same time. -/
def DocumentWritten (depth : Nat) : List NamespaceNode → List Token → Prop :=
  Listed (depth.ppred.map NamespaceNode.Written)

/-- Gives a namespace the value that `source` has for a field. -/
def NamespaceField.copy (source : NamespaceNode) :
    NamespaceField → NamespaceNode → NamespaceNode
  | .name => ({ · with name := source.name })
  | .description => ({ · with description := source.description })
  | .types => ({ · with types := source.types })
  | .functions => ({ · with functions := source.functions })
  | .events => ({ · with events := source.events })

theorem NamespaceField.copies (source : NamespaceNode) :
    Copies NamespaceField.fields (copy source) source where
  again := by
    intro field record
    cases field <;> rfl
  swap := by
    intro one two record
    cases one <;> cases two <;> rfl
  all := fun _ => rfl

theorem NamespaceField.find?_key (field : NamespaceField) :
    NamespaceField.fields.find? (NamespaceField.fields.key field) = some field := by
  cases field <;> rfl

theorem NamespaceField.reads {reader : Option (Reader Node)}
    {node : Option (Node → List Token → Prop)} (follows : Option.Rel Follows reader node)
    {source : NamespaceNode} (field : NamespaceField) {tokens : List Token}
    (written : field.Written node source (some tokens)) :
    Reads (field.read reader) tokens (field.copy source) := by
  have texts := @Json.reads_optional_of_rel _ _ _ Json.follows_string
  have lists := Json.follows_list follows
  cases field with
  | name => exact (texts written).map _
  | description => exact (texts written).map _
  | types => exact (lists _ _ written).2.map _
  | functions => exact (lists _ _ written).2.map _
  | events => exact (lists _ _ written).2.map _

theorem NamespaceField.copy_initial {node : Option (Node → List Token → Prop)}
    {source : NamespaceNode} (field : NamespaceField) (written : field.Written node source none) :
    field.copy source {} = {} := by
  cases field with
  | name | description => rw [NamespaceField.copy, Json.eq_none_of_rel written]
  | types => rw [NamespaceField.copy, (written : source.types = [])]
  | functions => rw [NamespaceField.copy, (written : source.functions = [])]
  | events => rw [NamespaceField.copy, (written : source.events = [])]

/-- The brackets of the document and of the namespace are open around its fields. -/
theorem follows_namespaceNode :
    Follows namespaceNode (NamespaceNode.Written (Reader.greatestDepth - 1)) := by
  intro source tokens written
  have follows : Option.Rel Follows (some (node nodeDepth)) (some (Node.Written nodeDepth)) :=
    .some (follows_node nodeDepth)
  exact written.reads (NamespaceField.copies source) NamespaceField.find?_key
    (fun field _ => field.reads follows) NamespaceField.copy_initial

theorem reads_document {document : List NamespaceNode} {tokens : List Token}
    (written : DocumentWritten Reader.greatestDepth document tokens) :
    Reads (Reader.list (some namespaceNode)) tokens document :=
  (Json.follows_list (.some follows_namespaceNode) document tokens written).2

end Externs.Schema
