import Externs.Proofs.Declaration.Composition
import Externs.Proofs.Declaration.Statements
import Externs.Proofs.Layout.Documented

/-!
# Doc comments keep their mark

In a declaration file whose names have no line feed, every line of a doc comment is empty
or has the mark of doc comments. Descriptions and literal annotations are cut into lines
first and may be any text. The message of a deprecation and what is said about parameters
and results are written as they are, so these have to stand on one line.
-/

set_option autoImplicit false

namespace Externs

/-! ## Names and texts on one line -/

/-- The names of a function, of its parameters and in its types pass a test. -/
def Function.hasNames (test : String → Bool) (function : Function) : Bool :=
  test function.name && function.parameters.all (fun parameter => test parameter.name) &&
    function.all (TypeKind.hasNames test)

theorem Function.name_of_hasNames {test : String → Bool} {function : Function}
    (names : function.hasNames test = true) : test function.name = true := by
  simp only [Function.hasNames, Bool.and_eq_true] at names
  exact names.1.1

def TypeDefinition.hasNames (test : String → Bool) (type : TypeDefinition) : Bool :=
  test type.name &&
    match type.definition with
    | .enumeration values => values.all fun value => test value.name
    | .record properties functions =>
        properties.all (fun property => test property.name) &&
          allProperties (TypeKind.hasNames test) properties &&
          functions.all (Function.hasNames test)
    | .choice choices => allChoices (TypeKind.hasNames test) choices
    | .alias target => target.all (TypeKind.hasNames test)

/-- The names that a namespace is written with pass a test. -/
def Namespace.hasNames (test : String → Bool) (space : Namespace) : Bool :=
  test space.name && space.types.all (TypeDefinition.hasNames test) &&
    space.functions.all (Function.hasNames test) && space.events.all fun event => test event.name

/-- A text stands on one line without the blanks around it. -/
def isRemark (text : Option String) : Bool :=
  text.all fun text => isOneLine (Text.trim text)

/-- The texts of a function that are written as they are stand on one line. -/
def Function.hasRemarks (function : Function) : Bool :=
  isRemark function.deprecated &&
    function.parameters.all (fun parameter => isRemark parameter.description) &&
    function.returns.all fun returns => isRemark returns.description

def TypeDefinition.hasRemarks (type : TypeDefinition) : Bool :=
  isRemark type.deprecated &&
    match type.definition with
    | .record _ functions => functions.all Function.hasRemarks
    | _ => true

def Namespace.hasRemarks (space : Namespace) : Bool :=
  space.types.all TypeDefinition.hasRemarks && space.functions.all Function.hasRemarks &&
    space.events.all fun event => isRemark event.deprecated

/-! ## Doc comments -/

def OneLineDoc (items : List DocItem) : Prop :=
  ∀ item ∈ items, item.IsOneLine

theorem OneLineDoc.append {first second : List DocItem} (one : OneLineDoc first)
    (two : OneLineDoc second) : OneLineDoc (first ++ second) :=
  List.forall_mem_append.mpr ⟨one, two⟩

theorem oneLineDoc_singleton {item : DocItem} (one : item.IsOneLine) : OneLineDoc [item] :=
  List.forall_mem_singleton.mpr one

theorem oneLineDoc_line {content : String} (one : isOneLine content = true) :
    OneLineDoc [.line content] :=
  oneLineDoc_singleton one

theorem oneLineDoc_tag {word : String} (one : isOneLine word = true) {type : TypeExpr}
    (lacks : TypeExpr.Lacks '\n' type) : OneLineDoc [.tag word type none none] :=
  oneLineDoc_singleton ⟨one, lacks, by simp, by simp⟩

theorem oneLineDoc_descriptionItems (description : Option String) :
    OneLineDoc (descriptionItems description) := by
  intro item member
  obtain ⟨line, found, rfl⟩ := List.mem_map.mp member
  exact Text.isOneLine_trim (Text.isOneLine_of_mem_lines (List.mem_filter.mp found).1)

theorem oneLineDoc_literalItems (literal : String) : OneLineDoc (literalItems literal) := by
  intro item member
  obtain ⟨line, found, rfl⟩ := List.mem_map.mp member
  exact Layout.isOneLine_escaped (Text.isOneLine_trim (Text.isOneLine_of_mem_lines found))

theorem oneLineDoc_deprecationItems {deprecated : Option String}
    (one : isRemark deprecated = true) : OneLineDoc (deprecationItems deprecated) := by
  cases deprecated with
  | none => exact fun item member => nomatch member
  | some message =>
      rw [isRemark, Option.all_some] at one
      have message := Layout.isOneLine_escaped one
      simp only [deprecationItems]
      split
      · exact oneLineDoc_line (by decide)
      · apply oneLineDoc_line
        rw [isOneLine_append, message]
        rfl

theorem isOneLine_of_mem_remark? {description : Option String}
    (one : isRemark description = true) : ∀ text ∈ remark? description, isOneLine text = true := by
  intro text member
  cases description with
  | none => exact nomatch member
  | some description =>
      rw [isRemark, Option.all_some] at one
      simp only [remark?] at member
      split at member
      · exact nomatch member
      · obtain rfl := Option.mem_some_iff.mp member
        exact one

/-- The link and the names of a site are on one line. -/
structure Site.IsOneLine (site : Site) : Prop where
  link : isOneLine site.docBaseUrl = true
  root : isOneLine site.scope.root = true
  space : isOneLine site.scope.space = true

theorem Site.IsOneLine.foreign {site : Site} (one : site.IsOneLine) :
    Foreign '\n' site.scope isOneLine where
  fixed := by decide
  root := isOneLine_iff.mp one.root
  space := isOneLine_iff.mp one.space
  names _ := isOneLine_iff.mp

namespace Site

variable {site : Site} (one : site.IsOneLine)

include one

theorem isOneLine_qualify {name : String} (named : isOneLine name = true) :
    isOneLine (site.scope.qualify name) = true :=
  isOneLine_iff.mpr (Scope.not_mem_qualify one.foreign (isOneLine_iff.mp named))

theorem oneLineDoc_link {kind name : String} (fixed : isOneLine kind = true)
    (named : isOneLine name = true) : OneLineDoc [site.link kind name] := by
  apply oneLineDoc_line
  simp only [isOneLine_append, one.link, one.space, fixed, named]
  decide

/-- The doc comment of an entity: what is said about it, its tags, and a link. -/
theorem oneLineDoc_entity (description : Option String) {deprecated : Option String}
    (remark : isRemark deprecated = true) {tags : List DocItem} (inTags : OneLineDoc tags)
    {kind name : String} (fixed : isOneLine kind = true) (named : isOneLine name = true) :
    OneLineDoc (descriptionItems description ++ tags ++ deprecationItems deprecated ++
      [site.link kind name]) :=
  (((oneLineDoc_descriptionItems description).append inTags).append
    (oneLineDoc_deprecationItems remark)).append (oneLineDoc_link one fixed named)

theorem isOneLine_parameterItem (entity : String) {parameter : Property}
    (label : isOneLine parameter.name = true)
    (names : parameter.type.all (TypeKind.hasNames isOneLine) = true)
    (remark : isRemark parameter.description = true) :
    Ensures (site.parameterItem entity parameter) DocItem.IsOneLine := by
  have placed := parameter.type.lacks_expressionIn one.foreign .parameter parameter.optional
    (entity ++ "." ++ parameter.name) names
  refine placed.bind fun expression lacks => ?_
  refine Ensures.pure ⟨by decide, lacks, ?_, isOneLine_of_mem_remark? remark⟩
  intro name found
  split at found
  · exact nomatch found
  · obtain rfl := Option.mem_some_iff.mp found
    exact label

theorem oneLineDoc_returnItems (entity : String) {returns : Option Return}
    (names : allReturn (TypeKind.hasNames isOneLine) returns = true)
    (remark : returns.all (fun returns => isRemark returns.description) = true) :
    Ensures (site.returnItems entity returns) OneLineDoc := by
  cases returns with
  | none => exact Ensures.pure fun item member => nomatch member
  | some returns =>
      obtain ⟨type, description⟩ := returns
      have placed := type.lacks_expressionIn one.foreign .result false entity names
      refine placed.bind fun expression lacks => Ensures.pure (oneLineDoc_singleton ?_)
      exact ⟨by decide, lacks, by simp, isOneLine_of_mem_remark? remark⟩

end Site

/-! ## Declarations -/

/-- What a line can end with so that it does not open a doc comment. -/
def endsLine (ending : String) : Bool :=
  isOneLine ending && ending.toList.getLast?.any (· != '*')

theorem isPlainLine_append {text ending : String} (one : isOneLine text = true)
    (ends : endsLine ending = true) : IsPlainLine (text ++ ending) := by
  obtain ⟨alone, other⟩ := Bool.and_eq_true_iff.mp ends
  constructor
  · rw [isOneLine_append, one, alone]
    rfl
  · intro same
    cases last : ending.toList.getLast? with
    | none =>
        rw [last] at other
        cases other
    | some c =>
        have star : (text ++ ending).toList.getLast? = some '*' := by rw [same]; rfl
        rw [String.toList_append, List.getLast?_append, last, Option.some_or] at star
        rw [last, star] at other
        cases other

theorem isOneLine_intercalate {separator : String} (one : isOneLine separator = true)
    {texts : List String} (all : ∀ text ∈ texts, isOneLine text = true) :
    isOneLine (separator.intercalate texts) = true := by
  induction texts with
  | nil => rfl
  | cons first rest ih =>
      obtain ⟨here, others⟩ := List.forall_mem_cons.mp all
      cases rest with
      | nil => simpa using here
      | cons next more =>
          rw [String.intercalate_cons_of_ne_nil (by simp), isOneLine_append, isOneLine_append,
            here, one, ih others]
          rfl

theorem isOneLine_of_isUnbroken {text : String} (unbroken : isUnbroken text = true) :
    isOneLine text = true := by
  rw [isOneLine_iff]
  intro member
  exact absurd (List.all_eq_true.mp unbroken '\n' member) (by decide)

theorem Enumeration.isOneLine_literal {value : String} (one : isOneLine value = true) :
    isOneLine (literal value) = true := by
  rw [isOneLine_iff] at one ⊢
  intro member
  simp only [literal, String.toList_ofList, List.mem_append, List.mem_singleton] at member
  rcases member with (quote | inside) | quote
  · exact absurd quote (by decide)
  · rcases mem_protect inside with escape | inside
    · exact absurd escape (by decide)
    · rcases mem_protect inside with escape | inside
      · exact absurd escape (by decide)
      · exact one inside
  · exact absurd quote (by decide)

theorem EnumValue.isPlainLine_statement {value : EnumValue}
    (one : isOneLine value.name = true) : IsPlainLine value.statement := by
  apply isPlainLine_append
  · have key := isOneLine_of_isUnbroken (Enumeration.isCode_key value.name).isUnbroken
    simp only [isOneLine_append, key, Enumeration.isOneLine_literal one]
    decide
  · decide

/-- A declaration with a doc comment of texts on one line, and with statements that are
no doc comments. -/
structure Declaration.IsTidy (declaration : Declaration) : Prop where
  doc : OneLineDoc declaration.doc
  statement : ∀ line ∈ declaration.statement, IsPlainLine line

theorem Declaration.IsTidy.documented {declaration : Declaration} (tidy : declaration.IsTidy)
    (width : Nat) : Documented (declaration.lines {} width) := by
  have inside : ∀ line ∈ declaration.doc.flatMap (DocItem.lines (Layout.Margin.inDoc {}) width),
      IsDocLine line := by
    intro line member
    obtain ⟨item, found, written⟩ := List.mem_flatMap.mp member
    exact DocItem.isDocLine_lines (tidy.doc item found) width line written
  have whole := Documented.doc inside (.of_plain tidy.statement)
  rw [Declaration.lines_empty]
  simpa using whole

def Block.IsTidy : Block → Prop
  | .single declaration => declaration.IsTidy
  | .cluster declarations => ∀ declaration ∈ declarations, declaration.IsTidy

theorem Block.IsTidy.documented {block : Block} (tidy : block.IsTidy) (width : Nat) :
    Documented (block.lines {} width) := by
  cases block with
  | single declaration => exact Declaration.IsTidy.documented tidy width
  | cluster declarations =>
      exact .flatMap fun declaration member =>
        ((tidy declaration member).documented width).append .blank

namespace Site

variable {site : Site} (one : site.IsOneLine)

include one

theorem isPlainLine_qualify {name ending : String} (named : isOneLine name = true)
    (ends : endsLine ending = true) :
    ∀ line ∈ [site.scope.qualify name ++ ending], IsPlainLine line :=
  List.forall_mem_singleton.mpr (isPlainLine_append (isOneLine_qualify one named) ends)

theorem isTidy_functionDeclaration {target : String} (path : isOneLine target = true)
    (entity : String) {function : Function} (named : function.hasNames isOneLine = true)
    (remarks : function.hasRemarks = true) :
    Ensures (site.functionDeclaration target entity function) Declaration.IsTidy := by
  obtain ⟨name, parameters, returns, description, deprecated⟩ := function
  simp only [Function.hasNames, Function.all, allProperties_eq_all, Bool.and_eq_true,
    List.all_eq_true] at named
  simp only [Function.hasRemarks, Bool.and_eq_true, List.all_eq_true] at remarks
  obtain ⟨⟨label, labels⟩, types, result⟩ := named
  obtain ⟨⟨message, inParameters⟩, inResult⟩ := remarks
  have each : ∀ parameter ∈ parameters,
      Ensures (site.parameterItem entity parameter) DocItem.IsOneLine := by
    intro parameter member
    exact isOneLine_parameterItem one entity (labels parameter member) (types parameter member)
      (inParameters parameter member)
  refine (Ensures.mapM_forall each).bind fun items inItems => ?_
  refine (oneLineDoc_returnItems one entity result inResult).bind fun returned inReturned => ?_
  refine Ensures.pure ⟨?_, ?_⟩
  · have both : OneLineDoc (items ++ returned) := OneLineDoc.append inItems inReturned
    have doc := oneLineDoc_entity one description message both
      (show isOneLine "method" = true by decide) label
    rwa [← List.append_assoc (descriptionItems description)] at doc
  · have names : isOneLine (", ".intercalate (parameters.map Property.name)) = true :=
      isOneLine_intercalate (by decide) (List.forall_mem_map.mpr labels)
    refine List.forall_mem_singleton.mpr (isPlainLine_append ?_ (by decide))
    simp only [isOneLine_append, path, names]
    decide

theorem isTidy_eventDeclaration {event : Event} (named : isOneLine event.name = true)
    (remark : isRemark event.deprecated = true) : (site.eventDeclaration event).IsTidy where
  doc := oneLineDoc_entity one event.description remark (oneLineDoc_line (by decide))
    (by decide) named
  statement := isPlainLine_qualify one named (by decide)

theorem isTidy_typedefDeclaration {type : TypeDefinition} (named : isOneLine type.name = true)
    (remark : isRemark type.deprecated = true) {expression : TypeExpr}
    (lacks : TypeExpr.Lacks '\n' expression) :
    (site.typedefDeclaration type expression).IsTidy where
  doc := oneLineDoc_entity one type.description remark (oneLineDoc_tag (by decide) lacks)
    (by decide) named
  statement := isPlainLine_qualify one named (by decide)

theorem isTidy_constructorDeclaration {type : TypeDefinition}
    (named : isOneLine type.name = true) (remark : isRemark type.deprecated = true) :
    (site.constructorDeclaration type).IsTidy where
  doc := oneLineDoc_entity one type.description remark
    (OneLineDoc.append (oneLineDoc_line (by decide)) (oneLineDoc_line (by decide)))
    (by decide) named
  statement := isPlainLine_qualify one named (by decide)

theorem isTidy_enumerationDeclaration {type : TypeDefinition}
    (named : isOneLine type.name = true) (remark : isRemark type.deprecated = true)
    {values : List EnumValue} (names : ∀ value ∈ values, isOneLine value.name = true) :
    Ensures (site.enumerationDeclaration type values) Declaration.IsTidy := by
  unfold enumerationDeclaration
  split
  · exact Ensures.throw _ _
  · refine Ensures.pure ⟨?_, ?_⟩
    · exact oneLineDoc_entity one type.description remark (oneLineDoc_line (by decide))
        (by decide) named
    · have opening := isPlainLine_qualify one named (show endsLine " = \x7b" = true by decide)
      have members : ∀ line ∈ values.map EnumValue.statement, IsPlainLine line :=
        List.forall_mem_map.mpr fun value member =>
          EnumValue.isPlainLine_statement (names value member)
      have closing : IsPlainLine "\x7d;" := ⟨by decide, by decide⟩
      exact List.forall_mem_append.mpr ⟨List.forall_mem_append.mpr ⟨opening, members⟩,
        List.forall_mem_singleton.mpr closing⟩

theorem isOneLine_prototype {type : TypeDefinition} (named : isOneLine type.name = true)
    {name : String} (label : isOneLine name = true) :
    isOneLine (site.scope.qualify type.name ++ ".prototype." ++ name) = true := by
  simp only [isOneLine_append, isOneLine_qualify one named, label]
  decide

theorem isTidy_propertyDeclaration {type : TypeDefinition} (named : isOneLine type.name = true)
    {property : Property} (label : isOneLine property.name = true)
    (names : property.type.all (TypeKind.hasNames isOneLine) = true) :
    Ensures (site.propertyDeclaration type property) Declaration.IsTidy := by
  have tidy (typing : List DocItem) (inTyping : OneLineDoc typing) :
      Declaration.IsTidy
        { doc := descriptionItems property.description ++ typing ++
            [site.link "type" property.name]
          statement :=
            [site.scope.qualify type.name ++ ".prototype." ++ property.name ++ ";"] } :=
    ⟨((oneLineDoc_descriptionItems _).append inTyping).append
        (oneLineDoc_link one (by decide) label),
      List.forall_mem_singleton.mpr
        (isPlainLine_append (isOneLine_prototype one named label) (by decide))⟩
  unfold propertyDeclaration
  cases property.jsexterns with
  | some literal => exact Ensures.pure (tidy _ (oneLineDoc_literalItems literal))
  | none =>
      have placed := property.type.lacks_expressionIn one.foreign .field property.optional
        (type.name ++ "." ++ property.name) names
      refine placed.bind fun expression lacks => ?_
      exact Ensures.pure (tidy _ (oneLineDoc_tag (by decide) lacks))

theorem isTidy_methodDeclaration {type : TypeDefinition} (named : isOneLine type.name = true)
    {method : Function} (names : method.hasNames isOneLine = true)
    (remarks : method.hasRemarks = true) :
    Ensures (site.methodDeclaration type method) Declaration.IsTidy :=
  isTidy_functionDeclaration one
    (isOneLine_prototype one named (Function.name_of_hasNames names)) _ names remarks

theorem isTidy_cluster {type : TypeDefinition} (named : isOneLine type.name = true)
    (remark : isRemark type.deprecated = true) {properties : List Property}
    {functions : List Function}
    (labels : properties.all (fun property => isOneLine property.name) = true)
    (types : allProperties (TypeKind.hasNames isOneLine) properties = true)
    (names : functions.all (Function.hasNames isOneLine) = true)
    (remarks : functions.all Function.hasRemarks = true) :
    Ensures
      (do
        let properties ← properties.mapM (site.propertyDeclaration type)
        let methods ← functions.mapM (site.methodDeclaration type)
        return .cluster (site.constructorDeclaration type :: properties ++ methods))
      Block.IsTidy := by
  rw [allProperties_eq_all] at types
  rw [List.all_eq_true] at labels types names remarks
  have members := Ensures.mapM_forall fun property (member : property ∈ properties) =>
    isTidy_propertyDeclaration one named (labels property member) (types property member)
  have methods := Ensures.mapM_forall fun method (member : method ∈ functions) =>
    isTidy_methodDeclaration one named (names method member) (remarks method member)
  refine members.bind fun first tidyFirst => ?_
  refine methods.bind fun second tidySecond => Ensures.pure ?_
  exact List.forall_mem_cons.mpr ⟨isTidy_constructorDeclaration one named remark,
    List.forall_mem_append.mpr ⟨tidyFirst, tidySecond⟩⟩

theorem isTidy_typedef {type : TypeDefinition} (named : isOneLine type.name = true)
    (remark : isRemark type.deprecated = true) {outcome : Except Defect TypeExpr}
    (lacks : Ensures outcome (TypeExpr.Lacks '\n')) :
    Ensures (do return .single (site.typedefDeclaration type (← outcome))) Block.IsTidy :=
  lacks.bind fun _ holds => Ensures.pure (isTidy_typedefDeclaration one named remark holds)

theorem isTidy_typeBlock {type : TypeDefinition} (named : type.hasNames isOneLine = true)
    (remarks : type.hasRemarks = true) : Ensures (site.typeBlock type) Block.IsTidy := by
  obtain ⟨name, description, deprecated, definition⟩ := type
  obtain ⟨label, named⟩ := Bool.and_eq_true_iff.mp named
  obtain ⟨message, remarks⟩ := Bool.and_eq_true_iff.mp remarks
  cases definition with
  | enumeration values =>
      have names : ∀ value ∈ values, isOneLine value.name = true := List.all_eq_true.mp named
      exact (isTidy_enumerationDeclaration one label message names).map fun _ tidy => tidy
  | record properties functions =>
      simp only [Bool.and_eq_true] at named
      obtain ⟨⟨labels, types⟩, methods⟩ := named
      simp only [typeBlock]
      split
      · split
        · exact Ensures.throw _ _
        · exact isTidy_typedef one label message
            (lacks_objectExpression one.foreign name labels types)
      · exact isTidy_cluster one label message labels types methods remarks
  | choice choices =>
      exact isTidy_typedef one label message (lacks_unionExpression one.foreign name named)
  | «alias» target =>
      exact isTidy_typedef one label message (target.lacks_expression one.foreign name named)

theorem isTidy_entityBlock {space : Namespace} (named : space.hasNames isOneLine = true)
    (remarks : space.hasRemarks = true) :
    ∀ entity ∈ space.entities, Ensures (site.entityBlock entity) Block.IsTidy := by
  simp only [Namespace.hasNames, Bool.and_eq_true, List.all_eq_true] at named
  simp only [Namespace.hasRemarks, Bool.and_eq_true, List.all_eq_true] at remarks
  obtain ⟨⟨⟨-, types⟩, functions⟩, events⟩ := named
  obtain ⟨⟨inTypes, inFunctions⟩, inEvents⟩ := remarks
  simp only [Namespace.entities, List.forall_mem_append, List.forall_mem_map]
  refine ⟨⟨fun type member => ?_, fun function member => ?_⟩, fun event member => ?_⟩
  · exact isTidy_typeBlock one (types type member) (inTypes type member)
  · have names := functions function member
    have path := isOneLine_qualify one (Function.name_of_hasNames names)
    exact (isTidy_functionDeclaration one path function.name names
      (inFunctions function member)).map fun _ tidy => tidy
  · exact Ensures.pure
      (isTidy_eventDeclaration one (events event member) (inEvents event member))

end Site

/-! ## Files -/

theorem Provenance.isOneLine_displayCommand {provenance : Provenance}
    (one : isOneLine provenance.command = true) : isOneLine provenance.displayCommand = true := by
  rw [isOneLine_iff] at one ⊢
  intro member
  rw [Provenance.displayCommand, String.toList_map] at member
  obtain ⟨original, found, same⟩ := List.mem_map.mp member
  split at same
  · exact absurd same (by decide)
  · exact one (same ▸ found)

namespace Generator

variable {generator : Generator} {space : Namespace}

theorem documented_headerLines (root : isOneLine generator.conventions.root = true)
    (holder : isOneLine generator.conventions.copyrightHolder = true)
    (command : isOneLine generator.provenance.command = true)
    (named : isOneLine space.name = true) : Documented (generator.headerLines space) := by
  have path : isOneLine (generator.site space).scope.path = true := by
    have dotted : isOneLine (generator.conventions.root ++ "." ++ space.name) = true := by
      rw [isOneLine_append, isOneLine_append, root, named]
      rfl
    exact dotted
  have year := isOneLine_of_isUnbroken (isUnbroken_toString generator.provenance.year)
  have invocation := Provenance.isOneLine_displayCommand command
  have copyright : IsPlainLine ("// Copyright " ++ toString generator.provenance.year ++ " " ++
      generator.conventions.copyrightHolder ++ ". All rights reserved.") := by
    refine isPlainLine_append ?_ (by decide)
    simp only [isOneLine_append, year, holder]
    decide
  have invoked : IsPlainLine ("//   " ++ generator.provenance.displayCommand ++ ".") := by
    refine isPlainLine_append ?_ (by decide)
    rw [isOneLine_append, invocation]
    decide
  have renamed :
      IsPlainLine ("//   '" ++ (generator.site space).scope.path ++ ".FooType'.") := by
    refine isPlainLine_append ?_ (by decide)
    rw [isOneLine_append, path]
    decide
  have overview :
      IsPlainLine ("/** @fileoverview Externs generated from namespace: " ++ space.name ++
        " */") := by
    refine isPlainLine_append ?_ (by decide)
    rw [isOneLine_append, named]
    decide
  have assigned : IsPlainLine ((generator.site space).scope.path ++ " = \x7b\x7d;") :=
    isPlainLine_append path (by decide)
  have marked : ∀ line ∈ [" * @const"], IsDocLine line :=
    List.forall_mem_singleton.mpr (.inr ⟨by decide, by decide⟩)
  refine .plain copyright ?_
  refine .plain ⟨by decide +kernel, by decide⟩ ?_
  refine .plain ⟨by decide +kernel, by decide⟩ ?_
  refine .plain ⟨by decide +kernel, by decide⟩ ?_
  refine .plain ⟨by decide +kernel, by decide⟩ ?_
  refine .plain invoked ?_
  refine .plain ⟨by decide +kernel, by decide⟩ ?_
  refine .plain renamed ?_
  refine .plain ⟨by decide +kernel, by decide⟩ ?_
  refine .plain ⟨by decide +kernel, by decide⟩ ?_
  refine .plain ⟨by decide +kernel, by decide⟩ ?_
  refine .plain overview ?_
  refine .plain ⟨by decide +kernel, by decide⟩ ?_
  exact Documented.doc marked (.plain assigned .blank)

/-- The blank lines at the end apart, a file has documented lines. -/
theorem exists_documented_of_listing (one : (generator.site space).IsOneLine)
    (holder : isOneLine generator.conventions.copyrightHolder = true)
    (command : isOneLine generator.provenance.command = true)
    (named : space.hasNames isOneLine = true) (remarks : space.hasRemarks = true)
    {listing : Layout.Listing} (success : generator.listing space = .ok listing) :
    ∃ lines, Documented lines ∧ listing.lines <+: lines := by
  obtain ⟨blocks, built, lines⟩ := exists_blocks_of_listing success
  have each : ∀ block ∈ blocks,
      Documented (block.lines {} generator.conventions.commentWidth ++ [""]) := by
    intro block member
    obtain ⟨entity, inside, made⟩ := Outcome.exists_of_mem_mapM built block member
    have tidy := Site.isTidy_entityBlock one named remarks entity inside block made
    exact (tidy.documented _).append .blank
  have header := documented_headerLines one.root holder command one.space
  exact ⟨_, header.append (.flatMap each), lines ▸ List.rdropWhile_prefix _ _⟩

theorem exists_listing_of_generate {text : String}
    (success : generator.generate space = .ok text) :
    ∃ listing, generator.listing space = .ok listing ∧
      Text.fedLines text = listing.lines.flatMap Text.fedLines ++ [""] := by
  obtain ⟨listing, found, made⟩ := Outcome.bind_eq_ok success
  cases made
  have whole : (listing.text ++ "\n").toList = JavaScript.unlines listing.lines :=
    toList_intercalate_newline (lines_ne_nil_of_listing found)
  exact ⟨listing, found, Text.fedLines_of_unlines whole⟩

/-- Every line of a doc comment is empty or marked, as long as neither the names nor the
texts that are written as they are break a line. -/
theorem markedDocs_generate {text : String}
    (root : isOneLine generator.conventions.root = true)
    (link : isOneLine generator.conventions.docBaseUrl = true)
    (holder : isOneLine generator.conventions.copyrightHolder = true)
    (command : isOneLine generator.provenance.command = true)
    (named : space.hasNames isOneLine = true) (remarks : space.hasRemarks = true)
    (success : generator.generate space = .ok text) : MarkedDocs (Text.fedLines text) := by
  have label : isOneLine space.name = true := by
    simp only [Namespace.hasNames, Bool.and_eq_true] at named
    exact named.1.1.1
  obtain ⟨listing, found, cut⟩ := exists_listing_of_generate success
  obtain ⟨lines, documented, start⟩ :=
    exists_documented_of_listing ⟨link, root, label⟩ holder command named remarks found
  have one : ∀ line ∈ listing.lines, isOneLine line = true :=
    fun line member => documented.isOneLine line (start.subset member)
  rw [cut, Text.flatMap_fedLines one]
  exact (documented.markedDocs.of_isPrefix start).blank

/-- A namespace with texts of several lines where these are cut, and with prose that is
wrapped. -/
def cutSpace : Namespace where
  name := "tabs"
  description := none
  sourceFile := "tabs.json"
  types :=
    [⟨"Tab", some "First.\n\nSecond.", some "\nUse Window.\n",
      .record [⟨"id", ⟨.any, false⟩, true, none, some "@type \x7b\n /**\n*/ Object\x7d"⟩]
        [⟨"move",
          [⟨"to", ⟨.inlineObject [⟨"x", ⟨.integer, false⟩, false, none, none⟩], false⟩, true,
            some "Where it is moved to.\n", none⟩], none, none, none⟩]⟩]
  functions := []
  events := []

theorem markedDocs_generate_cutSpace :
    ∃ text, narrowGenerator.generate cutSpace = .ok text ∧ MarkedDocs (Text.fedLines text) := by
  obtain ⟨text, success⟩ : ∃ text, narrowGenerator.generate cutSpace = .ok text := ⟨_, rfl⟩
  have root : isOneLine narrowGenerator.conventions.root = true := by decide
  have link : isOneLine narrowGenerator.conventions.docBaseUrl = true := by decide
  have holder : isOneLine narrowGenerator.conventions.copyrightHolder = true := by decide
  have command : isOneLine narrowGenerator.provenance.command = true := by decide
  have named : cutSpace.hasNames isOneLine = true := by decide
  have remarks : cutSpace.hasRemarks = true := by decide
  exact ⟨text, success, markedDocs_generate root link holder command named remarks success⟩

/-- A namespace whose only function is deprecated with a message of two lines. -/
def brokenSpace : Namespace where
  name := "tabs"
  description := none
  sourceFile := "tabs.json"
  types := []
  functions := [⟨"get", [], none, none, some "Use query.\nSince 2."⟩]
  events := []

def usualGenerator : Generator :=
  ⟨{}, ⟨2015, "compiler.py"⟩⟩

theorem lines_brokenSpace {listing : Layout.Listing}
    (success : usualGenerator.listing brokenSpace = .ok listing) :
    listing.lines = usualGenerator.headerLines brokenSpace ++
      ["/**", " * @deprecated Use query.\nSince 2.",
        " * @see https://developer.chrome.com/extensions/tabs#method-get", " */"] ++
      ["chrome.tabs.get = function() \x7b\x7d;"] := by
  obtain ⟨blocks, built, lines⟩ := exists_blocks_of_listing success
  have own : (blocks.flatMap fun block => block.lines {} 80 ++ [""]) =
      ["/**", " * @deprecated Use query.\nSince 2.",
        " * @see https://developer.chrome.com/extensions/tabs#method-get", " */"] ++
      ["chrome.tabs.get = function() \x7b\x7d;"] ++ [""] := by
    obtain rfl := Except.ok.inj built
    decide +kernel
  have width : usualGenerator.conventions.commentWidth = 80 := rfl
  rw [lines, width, own, ← List.append_assoc, ← List.append_assoc,
    List.rdropWhile_concat_pos _ _ _ rfl, List.rdropWhile_concat_neg _ _ _ (by decide)]

/-- All names are on one line, and still the second line of the message has no mark. -/
theorem not_markedDocs_brokenSpace :
    isOneLine usualGenerator.conventions.root = true ∧
      isOneLine usualGenerator.conventions.docBaseUrl = true ∧
      isOneLine usualGenerator.conventions.copyrightHolder = true ∧
      isOneLine usualGenerator.provenance.command = true ∧
      brokenSpace.hasNames isOneLine = true ∧
      ∃ text, usualGenerator.generate brokenSpace = .ok text ∧
        ¬ MarkedDocs (Text.fedLines text) := by
  refine ⟨by decide, by decide, by decide, by decide, by decide, ?_⟩
  obtain ⟨text, success⟩ : ∃ text, usualGenerator.generate brokenSpace = .ok text := ⟨_, rfl⟩
  refine ⟨text, success, fun marked => ?_⟩
  obtain ⟨listing, found, cut⟩ := exists_listing_of_generate success
  have header : Documented (usualGenerator.headerLines brokenSpace) :=
    documented_headerLines (by decide) (by decide) (by decide) (by decide)
  rw [cut, lines_brokenSpace found, List.append_assoc, List.flatMap_append,
    Text.flatMap_fedLines header.isOneLine] at marked
  have line := marked (usualGenerator.headerLines brokenSpace)
    [" * @deprecated Use query.", "Since 2.",
      " * @see https://developer.chrome.com/extensions/tabs#method-get"]
    ["chrome.tabs.get = function() \x7b\x7d;", ""]
    (by simp only [List.append_assoc]; exact congrArg _ (by decide +kernel)) (by decide) "Since 2."
    (by decide)
  exact absurd line (by decide)

end Generator

end Externs
