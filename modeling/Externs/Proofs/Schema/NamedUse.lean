import Externs.Proofs.Declaration.Composition
import Externs.Proofs.Schema.Shape
import Externs.Proofs.TypeExpr.Listed
import Mathlib.Data.List.ModifyLast

/-!
# Named types and their uses

A node may define a named type, or it may stand where a type is used. Without enumerated
values and methods both mean the same: one can be lowered where the other can, and what
is written in the braces of `@typedef` for the definition is the annotation of the use. Only
a mark for null is missing where choices or an object have a definition of their own.
-/

set_option autoImplicit false

namespace Externs

/-- The definition of a name for a type. Choices and objects with fields have definitions of
their own, which do not say whether they may be null. -/
def Definition.ofUse (use : TypeUse) : Definition :=
  match use.kind with
  | .choices choices => .choice choices
  | .inlineObject properties => .record properties []
  | _ => .alias use

theorem Definition.ofUse_of_isAliasable {use : TypeUse} (aliasable : use.kind.isAliasable = true) :
    Definition.ofUse use = .alias use := by
  obtain ⟨kind, nullable⟩ := use
  cases kind with
  | choices choices => cases aliasable
  | inlineObject properties => cases aliasable
  | _ => rfl

/-! ## Lowering -/

namespace Schema

open Outcome

theorem typeForm_of_isObject {node : Node} (object : node.isObject = true) :
    node.typeForm = .object := by
  rw [Node.typeForm]
  split
  · next typeName named =>
      rw [Node.isObject, named] at object
      rw [beq_iff_eq.mp object]
      rfl
  · exact if_pos object

theorem Node.ensures_nullable (path : String) (node : Node) :
    Ensures (node.typeUse path) fun use => use.nullable = node.facts.nullable := by
  obtain ⟨facts, properties, items, choices, parameters, returns, functions⟩ := node
  rw [Node.typeUse.eq_def]
  dsimp only
  split
  · exact Ensures.pure rfl
  · split
    · exact Ensures.after fun kind => Ensures.pure rfl
    · split
      · exact Ensures.pure rfl
      · exact Ensures.after fun kind => Ensures.pure rfl
      · exact Ensures.after fun returns => Ensures.after fun parameters => Ensures.pure rfl
      · exact Ensures.after fun kind => Ensures.pure rfl
      · exact Ensures.throw _ _
      · exact Ensures.throw _ _

theorem Node.hasFields_of_typeUse {path : String} {node : Node} {use : TypeUse}
    (lowered : node.typeUse path = .ok use) : use.kind.hasFields = true := by
  have all := node.all_typeUse lowered
  obtain ⟨kind, nullable⟩ := use
  cases kind with
  | inlineObject properties => exact (Bool.and_eq_true_iff.mp all).1
  | _ => rfl

theorem Node.typeUse_of_choices {node : Node} {choices : List Node}
    (unreferenced : node.facts.reference = none) (given : node.choices = some choices)
    (path : String) :
    node.typeUse path =
      (fun types => ⟨.choices types, node.facts.nullable⟩) <$> typeUses path choices := by
  obtain ⟨facts, properties, items, own, parameters, returns, functions⟩ := node
  obtain rfl : own = some choices := given
  rw [Node.typeUse, unreferenced]
  cases typeUses path choices <;> rfl

theorem Node.typeUse_of_isObject {node : Node} (unreferenced : node.facts.reference = none)
    (single : node.choices = none) (object : node.isObject = true) (path : String) :
    node.typeUse path =
      (fun fields => ⟨objectKind fields, node.facts.nullable⟩) <$>
        fieldsOf path node.properties := by
  have form : node.typeForm = .object := typeForm_of_isObject object
  obtain ⟨facts, properties, items, choices, parameters, returns, functions⟩ := node
  obtain rfl : choices = none := single
  have form : Node.typeForm { facts, properties, functions } = .object := form
  rw [Node.typeUse, unreferenced]
  dsimp only
  rw [form]
  cases fieldsOf path properties <;> rfl

/-- The definition of a node is that of its use, with the same rejection if it has none. -/
theorem Node.definition_eq_ofUse {node : Node} (unlisted : node.facts.values = none)
    (methodless : node.functions.getD [] = [])
    (single : node.facts.reference = none ∨ node.choices = none) (path : String) :
    node.definition path = Definition.ofUse <$> node.typeUse path := by
  rw [Node.definition, unlisted, methodless]
  -- A definition looks for choices first, a use for a reference. With one of them at most,
  -- both come to the same case.
  cases given : node.choices with
  | some choices =>
      have unreferenced : node.facts.reference = none :=
        single.resolve_right (by rw [given]; exact Option.some_ne_none choices)
      rw [node.typeUse_of_choices unreferenced given]
      dsimp only
      cases typeUses path choices <;> rfl
  | none =>
      dsimp only
      split
      · next inline =>
          obtain ⟨unreferenced, object⟩ := Bool.and_eq_true_iff.mp inline
          rw [node.typeUse_of_isObject (Option.isNone_iff_eq_none.mp unreferenced) given object]
          cases fieldsOf path node.properties with
          | error rejection => rfl
          | ok fields => cases fields <;> rfl
      · next other =>
          cases lowered : node.typeUse path with
          | error rejection => rfl
          | ok use =>
              have aliasable := node.isAliasable_typeUse lowered given other
              exact congrArg Except.ok (Definition.ofUse_of_isAliasable aliasable).symm

end Schema

/-! ## Annotations -/

namespace TypeExpr

/-- Text in front of an expression stands on its first line. -/
theorem lines_ofText_append (content : String) (expression : TypeExpr) :
    (ofText content ++ expression).lines = expression.lines.modifyHead (content ++ ·) := by
  have marked := linesAfter_append content "" expression
  rwa [String.append_empty] at marked

theorem modifyHead_empty_append (lines : List String) :
    lines.modifyHead ("" ++ ·) = lines := by
  cases lines with
  | nil => rfl
  | cons first rest => rw [List.modifyHead_cons, String.empty_append]

end TypeExpr

/-- What a definition is annotated with: the expression of its use, and for choices and
objects that of their kind alone. -/
def TypeUse.typedef (scope : Scope) (name : String) (use : TypeUse) : Except Defect TypeExpr :=
  if use.kind.isAliasable then use.expression scope name else use.kind.expression scope name

theorem Site.typeBlock_ofUse (site : Site) {type : TypeDefinition} {use : TypeUse}
    (definition : type.definition = .ofUse use) (fields : use.kind.hasFields = true) :
    site.typeBlock type =
      (fun expression => .single (site.typedefDeclaration type expression)) <$>
        use.typedef site.scope type.name := by
  obtain ⟨kind, nullable⟩ := use
  rw [Site.typeBlock, definition]
  cases kind with
  | choices choices => rfl
  | inlineObject properties =>
      cases properties with
      | nil => cases fields
      | cons first rest => rfl
  | _ => rfl

theorem TypeUse.indentsLines_typedef (scope : Scope) (name : String) (use : TypeUse) :
    Ensures (use.typedef scope name) TypeExpr.IndentsLines := by
  rw [TypeUse.typedef]
  split
  · exact (use.shows_listing scope name).ensures fun _ _ shows => shows.indents
  · exact (use.kind.shows_listing scope name).ensures fun _ _ shows => shows.indents

/-- The lines of an annotation in the braces of `@typedef`, inside of a doc comment. -/
def inTypedef (inside : List String) : List String :=
  ((inside.modifyHead ("@typedef \x7b" ++ ·)).modifyLast (· ++ "\x7d")).map (" * " ++ ·)

/-- What is written for a name of a type with the given annotation. -/
def Site.typedefLines (site : Site) (width : Nat) (type : TypeDefinition)
    (inside : List String) : List String :=
  let docLines := List.flatMap (DocItem.lines (Layout.Margin.inDoc {}) width)
  ["/**"] ++ docLines (descriptionItems type.description) ++ inTypedef inside ++
    docLines (deprecationItems type.deprecated) ++ docLines [site.link "type" type.name] ++
    [" */", site.scope.qualify type.name ++ ";"]

/-- What is spliced between two texts stands on lines of its own, each with the margin. -/
theorem Layout.Listing.lines_enclosed (listing : Layout.Listing) {opening : String}
    (shown : opening ≠ "") (closing first : String) {rest : List String}
    (filled : ∀ line ∈ rest, line ≠ "") :
    (((listing.append opening).splice (first :: rest)).inline closing).lines =
      listing.lines ++
        (((opening ++ first) :: rest).modifyLast (· ++ closing)).map
          (listing.margin.text ++ ·) := by
  have opened : (listing.append opening).lines =
      listing.lines ++ [listing.margin.text ++ opening] := by
    rw [lines_append, Margin.apply_of_ne_empty shown]
  have marked : rest.map listing.margin.apply = rest.map (listing.margin.text ++ ·) :=
    List.map_congr_left fun line member => Margin.apply_of_ne_empty (filled line member)
  have spliced : ((listing.append opening).splice (first :: rest)).lines =
      listing.lines ++ ((opening ++ first) :: rest).map (listing.margin.text ++ ·) := by
    rw [lines_splice opened, margin_append, marked, List.map_cons, String.append_assoc]
  rcases List.eq_nil_or_concat ((opening ++ first) :: rest) with none | ⟨before, last, ends⟩
  · cases none
  · rw [List.concat_eq_append] at ends
    rw [ends, List.map_append, ← List.append_assoc] at spliced
    rw [lines_inline spliced, ends, List.modifyLast_concat, List.map_append, List.append_assoc,
      List.map_singleton, String.append_assoc]

theorem DocItem.lines_typedef {expression : TypeExpr} (indents : expression.IndentsLines)
    (width : Nat) :
    (DocItem.tag "typedef" expression none none).lines (Layout.Margin.inDoc {}) width =
      inTypedef expression.lines := by
  cases made : expression.lines with
  | nil => exact absurd made (TypeExpr.linesAfter_ne_nil _ _)
  | cons first rest =>
      have shown : "@typedef \x7b" ≠ "" := by decide
      rw [DocItem.lines, DocItem.write_tag]
      dsimp only [DocItem.tagged, DocItem.closing]
      rw [made]
      exact Layout.Listing.lines_enclosed _ shown "\x7d" first (indents.ne_empty_of_mem made)

theorem Site.lines_typedefDeclaration (site : Site) (type : TypeDefinition)
    {expression : TypeExpr} (indents : expression.IndentsLines) (width : Nat) :
    (site.typedefDeclaration type expression).lines {} width =
      site.typedefLines width type expression.lines := by
  rw [Declaration.lines_empty, Site.typedefLines, ← DocItem.lines_typedef indents width]
  simp [Site.typedefDeclaration]

theorem TypeKind.mark_of_isAliasable {kind : TypeKind} (own : kind.isAliasable = false)
    (nullable : Bool) : kind.mark nullable = if nullable then "?" else "" := by
  cases kind with
  | choices choices => rfl
  | inlineObject properties => rfl
  | _ => cases own

theorem TypeUse.lines_expression (scope : Scope) (name : String) (kind : TypeKind)
    (nullable : Bool) :
    TypeExpr.lines <$> TypeUse.expression scope name ⟨kind, nullable⟩ =
      (fun expression => expression.lines.modifyHead (kind.mark nullable ++ ·)) <$>
        kind.expression scope name := by
  rw [TypeUse.expression]
  cases kind.expression scope name with
  | error defect => rfl
  | ok expression => exact congrArg Except.ok (TypeExpr.lines_ofText_append _ expression)

/-- The use of choices or of an object that may be null starts with a mark that its definition
does not have. Apart from this they have the same lines, and the same defects. -/
theorem TypeUse.lines_expression_eq (scope : Scope) (name : String) (use : TypeUse) :
    TypeExpr.lines <$> use.expression scope name =
      (fun lines =>
          if use.nullable && !use.kind.isAliasable then lines.modifyHead ("?" ++ ·) else lines) <$>
        TypeExpr.lines <$> use.typedef scope name := by
  obtain ⟨kind, nullable⟩ := use
  rw [TypeUse.typedef, Functor.map_map]
  cases aliasable : kind.isAliasable with
  | true => simp only [Bool.not_true, Bool.and_false, Bool.false_eq_true, if_false, if_true]
  | false =>
      rw [TypeUse.lines_expression, TypeKind.mark_of_isAliasable aliasable]
      cases nullable with
      | true => rfl
      | false =>
          simp only [Bool.false_and, Bool.false_eq_true, if_false,
            TypeExpr.modifyHead_empty_append]

/-- What is written for a definition is its annotation in the braces of `@typedef`. -/
theorem Site.ownLines_ofUse (site : Site) (width : Nat) {type : TypeDefinition} {use : TypeUse}
    (definition : type.definition = .ofUse use) (fields : use.kind.hasFields = true) :
    site.ownLines width (.type type) =
      site.typedefLines width type <$> TypeExpr.lines <$> use.typedef site.scope type.name := by
  have indents := use.indentsLines_typedef site.scope type.name
  rw [Site.ownLines, Site.entityBlock, site.typeBlock_ofUse definition fields]
  cases annotated : use.typedef site.scope type.name with
  | error defect => rfl
  | ok expression =>
      have written := site.lines_typedefDeclaration type (indents expression annotated) width
      exact congrArg Except.ok ((Block.lines_write_ofWidth width _).trans written)

/-! ## Nodes -/

namespace Schema

open Outcome

/-- A node that defines a named type means the same where the type is used. -/
theorem Node.typedef_eq_use {node : Node} {name : String} (identified : node.facts.id = some name)
    (unlisted : node.facts.values = none) (methodless : node.functions.getD [] = [])
    (single : node.facts.reference = none ∨ node.choices = none) (space : String) :
    (∀ rejection, node.typeDefinition space = .error rejection ↔
      node.typeUse (part space name) = .error rejection) ∧
    ∀ type use, node.typeDefinition space = .ok type →
      node.typeUse (part space name) = .ok use → ∀ site : Site,
      ∃ inside : Except Defect (List String),
        (∀ width, site.ownLines width (.type type) =
          site.typedefLines width type <$> inside) ∧
        TypeExpr.lines <$> use.expression site.scope name =
          (fun lines =>
              if node.facts.nullable && !use.kind.isAliasable then lines.modifyHead ("?" ++ ·)
              else lines) <$> inside := by
  have built : node.typeDefinition space =
      (fun use => ⟨name, node.facts.description, node.facts.deprecated, .ofUse use⟩) <$>
        node.typeUse (part space name) := by
    rw [Node.typeDefinition, identified, required]
    dsimp only [bind, Except.bind]
    rw [node.definition_eq_ofUse unlisted methodless single]
    cases node.typeUse (part space name) <;> rfl
  rw [built]
  constructor
  · exact fun rejection => map_eq_error_iff
  · intro type use defined lowered site
    rw [lowered] at defined
    obtain rfl := Except.ok.inj defined
    have fields := node.hasFields_of_typeUse lowered
    rw [← node.ensures_nullable _ use lowered]
    exact ⟨TypeExpr.lines <$> use.typedef site.scope name,
      fun width => site.ownLines_ofUse width rfl fields, use.lines_expression_eq site.scope name⟩

/-- An object with one field that may be null. -/
def nullableNode : Node :=
  { facts := { id := some "Tab", nullable := true },
    properties := some [("id", { facts := { typeName := some "integer" } })] }

theorem Node.typedef_eq_use_nullableNode :
    let site : Site := ⟨"https://developer.chrome.com/extensions", ⟨"chrome", "tabs"⟩⟩
    ∃ type use,
      nullableNode.typeDefinition "tabs" = .ok type ∧
      nullableNode.typeUse (part "tabs" "Tab") = .ok use ∧
      (∃ inside : Except Defect (List String),
        (∀ width, site.ownLines width (.type type) =
          site.typedefLines width type <$> inside) ∧
        TypeExpr.lines <$> use.expression site.scope "Tab" =
          (fun lines => lines.modifyHead ("?" ++ ·)) <$> inside) ∧
      site.ownLines 80 (.type type) =
        .ok ["/**", " * @typedef \x7b\x7b", " *   id: number", " * \x7d\x7d",
          " * @see https://developer.chrome.com/extensions/tabs#type-Tab", " */",
          "chrome.tabs.Tab;"] ∧
      TypeExpr.lines <$> use.expression site.scope "Tab" =
        .ok ["?\x7b", "  id: number", "\x7d"] := by
  intro site
  have same := @Node.typedef_eq_use nullableNode "Tab" rfl rfl rfl (.inl rfl) "tabs"
  exact ⟨_, _, rfl, rfl, same.2 _ _ rfl rfl site, by decide +kernel, by decide +kernel⟩

end Schema

end Externs
