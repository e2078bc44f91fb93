import Externs.Proofs.JavaScript.Code
import Externs.Proofs.TypeExpr.Parts

/-!
# The statements of a file

What a declaration file says apart from its comments: each entity is declared once
and in order, by statements that depend on names and on values of enumerations only.
Free text never gets out of the comments.
-/

set_option autoImplicit false

namespace Externs

open JavaScript (isLineTerminator Runs Leaves LeavesTrimmed)

/-! ## Statements -/

def functionStatement (target : String) (parameters : List Property) : String :=
  target ++ " = function(" ++ ", ".intercalate (parameters.map Property.name) ++ ") \x7b\x7d;"

def EnumValue.statement (value : EnumValue) : String :=
  "  " ++ Enumeration.key value.name ++ ": " ++ Enumeration.literal value.name ++ ","

/-- The statements for a named type. A record with methods is a constructor, with
properties and methods at its prototype. -/
def TypeDefinition.statements (scope : Scope) (type : TypeDefinition) : List String :=
  let path := scope.qualify type.name
  match type.definition with
  | .enumeration values =>
      [path ++ " = \x7b"] ++ values.map EnumValue.statement ++ ["\x7d;"]
  | .record properties functions =>
      if functions.isEmpty then [path ++ ";"]
      else
        [path ++ " = function() \x7b\x7d;"] ++
          properties.map (fun property => path ++ ".prototype." ++ property.name ++ ";") ++
          functions.map fun method =>
            functionStatement (path ++ ".prototype." ++ method.name) method.parameters
  | .choice _ => [path ++ ";"]
  | .alias _ => [path ++ ";"]

def Entity.statements (scope : Scope) : Entity → List String
  | .type declared => declared.statements scope
  | .function declared => [functionStatement (scope.qualify declared.name) declared.parameters]
  | .event declared => [scope.qualify declared.name ++ ";"]

/-- The statements for a namespace: the object that it is, and then its types, its
functions and its events. -/
def Namespace.statements (root : String) (space : Namespace) : List String :=
  let scope : Scope := ⟨root, space.name⟩
  [root ++ "." ++ space.name ++ " = \x7b\x7d;"] ++
    space.types.flatMap (TypeDefinition.statements scope) ++
    space.functions.map (fun declared =>
      functionStatement (scope.qualify declared.name) declared.parameters) ++
    space.events.map fun declared => scope.qualify declared.name ++ ";"

/-! ## Names and lines -/

/-- The names of a function, of its parameters and in its types are dotted identifiers. -/
def Function.isNamed (function : Function) : Bool :=
  Name.isDotted function.name &&
    function.parameters.all (fun parameter => Name.isDotted parameter.name) &&
    function.all TypeKind.isNamed

def TypeDefinition.isNamed (type : TypeDefinition) : Bool :=
  Name.isDotted type.name &&
    match type.definition with
    | .enumeration _ => true
    | .record properties functions =>
        properties.all (fun property => Name.isDotted property.name) &&
          allProperties TypeKind.isNamed properties && functions.all Function.isNamed
    | .choice choices => allChoices TypeKind.isNamed choices
    | .alias target => target.all TypeKind.isNamed

/-- The names in a namespace are dotted identifiers. -/
def Namespace.isNamed (space : Namespace) : Bool :=
  Name.isDotted space.name && space.types.all TypeDefinition.isNamed &&
    space.functions.all Function.isNamed && space.events.all fun event => Name.isDotted event.name

def isUnbroken (text : String) : Bool :=
  text.toList.all fun c => !isLineTerminator c

/-- The values of enumerations stand on one line. -/
def TypeDefinition.isUnbroken (type : TypeDefinition) : Bool :=
  match type.definition with
  | .enumeration values => values.all fun value => Externs.isUnbroken value.name
  | _ => true

/-! ## Doc comments stay closed -/

def CleanDoc (items : List DocItem) : Prop :=
  ∀ item ∈ items, item.Clean

theorem CleanDoc.append {first second : List DocItem} (one : CleanDoc first)
    (two : CleanDoc second) : CleanDoc (first ++ second) :=
  List.forall_mem_append.mpr ⟨one, two⟩

theorem cleanDoc_singleton {item : DocItem} (clean : item.Clean) : CleanDoc [item] :=
  List.forall_mem_singleton.mpr clean

theorem unclosed_of_star_not_mem {line : String} (plain : '*' ∉ line.toList) : Unclosed line :=
  Layout.not_commentEnd_of_star_not_mem plain

theorem cleanDoc_line {content : String} (plain : '*' ∉ content.toList) :
    CleanDoc [.line content] :=
  cleanDoc_singleton (show Unclosed content from unclosed_of_star_not_mem plain)

theorem cleanDoc_descriptionItems (description : Option String) :
    CleanDoc (descriptionItems description) := by
  intro item member
  obtain ⟨line, -, rfl⟩ := List.mem_map.mp member
  trivial

theorem cleanDoc_deprecationItems (deprecated : Option String) :
    CleanDoc (deprecationItems deprecated) := by
  cases deprecated with
  | none => exact fun item member => nomatch member
  | some message =>
      simp only [deprecationItems]
      split
      · exact cleanDoc_line (by decide)
      · apply cleanDoc_singleton
        rw [DocItem.Clean, Unclosed, String.toList_append]
        exact Layout.not_commentEnd_append (Layout.not_commentEnd_of_star_not_mem (by decide))
          (unclosed_escaped _) (.inl (by decide))

theorem cleanDoc_literalItems (literal : String) : CleanDoc (literalItems literal) := by
  intro item member
  obtain ⟨line, -, rfl⟩ := List.mem_map.mp member
  exact unclosed_escaped (Text.trim line)

theorem clean_tag {word : String} (plain : Slashless word) {type : TypeExpr}
    (slashless : TypeExpr.Lacks '/' type) {name : Option String}
    (inName : ∀ label ∈ name, Slashless label) (remark : Option String) :
    (DocItem.tag word type name remark).Clean :=
  ⟨plain, slashless.lines (by decide) (by decide), inName⟩

theorem cleanDoc_tag {word : String} (plain : Slashless word) {type : TypeExpr}
    (slashless : TypeExpr.Lacks '/' type) : CleanDoc [.tag word type none none] :=
  cleanDoc_singleton (clean_tag plain slashless (by simp) none)

/-- What the links of a site do not have, and names of its scope. -/
structure Site.Tame (site : Site) : Prop where
  link : '*' ∉ site.docBaseUrl.toList
  named : site.scope.isNamed = true

section

variable {site : Site} (tame : site.Tame)

include tame

theorem Site.cleanDoc_link {kind name : String} (plain : '*' ∉ kind.toList)
    (dotted : Name.isDotted name = true) : CleanDoc [site.link kind name] := by
  have inSpace : '*' ∉ site.scope.space.toList :=
    Name.not_mem_of_isDotted (by decide) (Bool.and_eq_true_iff.mp tame.named).2
  have inName : '*' ∉ name.toList := Name.not_mem_of_isDotted (by decide) dotted
  apply cleanDoc_line
  simp [tame.link, inSpace, plain, inName]

/-- The doc comment of an entity: what is said about it, its tags, and a link. -/
theorem Site.cleanDoc_entity (description deprecated : Option String) {tags : List DocItem}
    (clean : CleanDoc tags) {kind name : String} (plain : '*' ∉ kind.toList)
    (dotted : Name.isDotted name = true) :
    CleanDoc (descriptionItems description ++ tags ++ deprecationItems deprecated ++
      [site.link kind name]) :=
  (((cleanDoc_descriptionItems description).append clean).append
    (cleanDoc_deprecationItems deprecated)).append (cleanDoc_link tame plain dotted)

theorem Site.clean_parameterItem (entity : String) {parameter : Property}
    (dotted : Name.isDotted parameter.name = true)
    (named : parameter.type.all TypeKind.isNamed = true) :
    Ensures (site.parameterItem entity parameter) DocItem.Clean := by
  have placed := TypeUse.slashless_expressionIn tame.named .parameter parameter.optional
    (entity ++ "." ++ parameter.name) parameter.type named
  refine placed.bind fun expression slashless => ?_
  refine Ensures.pure (clean_tag (by simp [Slashless]) slashless ?_ _)
  intro label found
  split at found
  · exact absurd found (Option.not_mem_none label)
  · obtain rfl := Option.mem_some_iff.mp found
    exact Name.slash_not_mem_of_isDotted dotted

theorem Site.cleanDoc_returnItems (entity : String) {returns : Option Return}
    (named : allReturn TypeKind.isNamed returns = true) :
    Ensures (site.returnItems entity returns) CleanDoc := by
  cases returns with
  | none => exact Ensures.pure fun item member => absurd member List.not_mem_nil
  | some returns =>
      obtain ⟨type, description⟩ := returns
      rw [allReturn] at named
      have placed := TypeUse.slashless_expressionIn tame.named .result false entity type named
      refine placed.bind fun expression slashless => ?_
      refine Ensures.pure (cleanDoc_singleton (clean_tag (by simp [Slashless]) slashless ?_ _))
      exact fun label found => absurd found (Option.not_mem_none label)

end

/-! ## Statements are code -/

/-- Code on one line, which no comment takes away. -/
def IsCode (text : String) : Prop :=
  Runs .code text.toList .code text.toList ∧ ∀ c ∈ text.toList, isLineTerminator c = false

def isPlainCode (c : Char) : Bool :=
  c != '/' && c != '\'' && !isLineTerminator c

theorem isCode_of_plain {text : String} (plain : text.toList.all isPlainCode = true) :
    IsCode text := by
  simp only [List.all_eq_true, isPlainCode, Bool.and_eq_true, bne_iff_ne,
    Bool.not_eq_true'] at plain
  exact ⟨JavaScript.runs_code fun c member => (plain c member).1,
    fun c member => (plain c member).2⟩

theorem IsCode.append {left right : String} (one : IsCode left) (two : IsCode right) :
    IsCode (left ++ right) := by
  rw [IsCode, String.toList_append]
  refine ⟨one.1.append two.1, fun c member => ?_⟩
  rcases List.mem_append.mp member with member | member
  · exact one.2 c member
  · exact two.2 c member

theorem isPlainCode_of_isDottedPart {c : Char} (part : Name.isDottedPart c = true) :
    isPlainCode c = true := by
  rcases Bool.or_eq_true_iff.mp part with part | dot
  · have shown := Name.isBlank_eq_false_of_isPart part
    simp only [isPlainCode, isLineTerminator, Bool.and_eq_true, bne_iff_ne, Bool.not_eq_true',
      Bool.or_eq_false_iff, beq_eq_false_iff_ne]
    refine ⟨⟨?_, ?_⟩, ⟨⟨?_, ?_⟩, ?_⟩, ?_⟩
    all_goals
      rintro rfl
      revert part shown
      decide
  · rw [beq_iff_eq.mp dot]
    decide

theorem isCode_of_isDotted {name : String} (dotted : Name.isDotted name = true) : IsCode name :=
  isCode_of_plain <| List.all_eq_true.mpr fun c member =>
    isPlainCode_of_isDottedPart (Name.isDottedPart_of_isDotted dotted c member)

theorem Scope.isCode_qualify {scope : Scope} (named : scope.isNamed = true) {name : String}
    (dotted : Name.isDotted name = true) : IsCode (scope.qualify name) :=
  isCode_of_plain <| List.all_eq_true.mpr fun c member =>
    isPlainCode_of_isDottedPart (Scope.isDottedPart_of_mem_qualify named dotted c member)

theorem isCode_intercalate {separator : String} (code : IsCode separator) {texts : List String}
    (all : ∀ text ∈ texts, IsCode text) : IsCode (separator.intercalate texts) := by
  induction texts with
  | nil => exact isCode_of_plain rfl
  | cons first rest ih =>
      obtain ⟨here, others⟩ := List.forall_mem_cons.mp all
      cases rest with
      | nil => simpa using here
      | cons next more =>
          rw [String.intercalate_cons_of_ne_nil (by simp)]
          exact (here.append code).append (ih others)

namespace Enumeration

theorem isWordChar_of_mem_guardDigit_maskOthers {text : List Char} {c : Char}
    (member : c ∈ guardDigit (maskOthers text)) : isWordChar c = true := by
  have masked : ∀ c ∈ maskOthers text, isWordChar c = true := by
    intro c member
    obtain ⟨other, -, rfl⟩ := List.mem_map.mp member
    split
    · assumption
    · rfl
  generalize maskOthers text = letters at member masked
  cases letters with
  | nil => exact nomatch member
  | cons first rest =>
      rw [guardDigit] at member
      split at member
      · rcases List.mem_cons.mp member with rfl | later
        · rfl
        · exact masked c later
      · exact masked c member

theorem isPlainCode_toUpper {c : Char} (word : isWordChar c = true) :
    isPlainCode c.toUpper = true := by
  have small (code : Fin 128) :
      isWordChar (Char.ofNat code) = true → isPlainCode (Char.ofNat code).toUpper = true := by
    revert code
    decide
  have bound : c.toNat < 128 := by
    rcases Bool.or_eq_true_iff.mp word with word | underscore
    · have code := Name.toNat_of_isAlphanum word
      omega
    · rw [beq_iff_eq.mp underscore]
      decide
  have result := small ⟨c.toNat, bound⟩
  rw [Char.ofNat_toNat] at result
  exact result word

theorem isCode_key (value : String) : IsCode (key value) := by
  refine isCode_of_plain (List.all_eq_true.mpr fun c member => ?_)
  rw [key, String.toList_ofList] at member
  obtain ⟨letter, found, rfl⟩ := List.mem_map.mp member
  exact isPlainCode_toUpper (isWordChar_of_mem_guardDigit_maskOthers found)

theorem mem_protect {mark c : Char} {text : List Char} (member : c ∈ protect mark text) :
    c = '\\' ∨ c ∈ text := by
  obtain ⟨original, found, inside⟩ := List.mem_flatMap.mp member
  split at inside
  · rcases List.mem_cons.mp inside with rfl | inside
    · exact .inl rfl
    · exact .inr (List.mem_singleton.mp inside ▸ found)
  · exact .inr (List.mem_singleton.mp inside ▸ found)

theorem isCode_literal {value : String} (unbroken : isUnbroken value = true) :
    IsCode (literal value) := by
  have inValue : ∀ c ∈ value.toList, isLineTerminator c = false := by
    simpa [isUnbroken] using unbroken
  refine ⟨JavaScript.runs_literal inValue, fun c member => ?_⟩
  simp only [literal, String.toList_ofList, List.mem_append, List.mem_singleton] at member
  rcases member with (rfl | inside) | rfl
  · decide
  · rcases mem_protect inside with rfl | inside
    · decide
    · rcases mem_protect inside with rfl | inside
      · decide
      · exact inValue c inside
  · decide

end Enumeration

/-- A line of code that is not blank. -/
structure IsStatement (line : String) : Prop where
  code : IsCode line
  shown : Text.allBlank line = false

/-- The last character of a statement is its own. -/
theorem IsCode.isStatement {text ending : String} (code : IsCode text)
    (plain : ending.toList.all isPlainCode = true) (shown : Text.allBlank ending = false) :
    IsStatement (text ++ ending) := by
  refine ⟨code.append (isCode_of_plain plain), ?_⟩
  rw [Text.allBlank, String.toList_append, List.all_append]
  exact Bool.and_eq_false_imp.mpr fun _ => shown

theorem isStatement_functionStatement {target : String} (code : IsCode target)
    {parameters : List Property}
    (dotted : parameters.all (fun parameter => Name.isDotted parameter.name) = true) :
    IsStatement (functionStatement target parameters) := by
  have names : IsCode (", ".intercalate (parameters.map Property.name)) := by
    apply isCode_intercalate (isCode_of_plain (by decide))
    intro name member
    obtain ⟨parameter, found, rfl⟩ := List.mem_map.mp member
    exact isCode_of_isDotted (List.all_eq_true.mp dotted parameter found)
  have assignment : IsCode " = function(" := isCode_of_plain (by decide)
  have opened := code.append assignment
  exact (opened.append names).isStatement (by decide) (by decide)

theorem EnumValue.isStatement_statement {value : EnumValue}
    (unbroken : isUnbroken value.name = true) : IsStatement value.statement := by
  have indent : IsCode "  " := isCode_of_plain (by decide)
  have colon : IsCode ": " := isCode_of_plain (by decide)
  have member := ((indent.append (Enumeration.isCode_key value.name)).append colon).append
    (Enumeration.isCode_literal unbroken)
  exact member.isStatement (by decide) (by decide)

/-! ## Declarations leave their statements -/

/-- A declaration with a clean doc comment and the given statements. -/
structure Declaration.Declares (declaration : Declaration) (statements : List String) : Prop where
  doc : CleanDoc declaration.doc
  same : declaration.statement = statements
  code : ∀ line ∈ statements, IsStatement line
  filled : statements ≠ []

theorem leaves_of_isStatement {lines : List String} (all : ∀ line ∈ lines, IsStatement line) :
    Leaves lines lines := by
  induction lines with
  | nil => exact .nil
  | cons line rest ih =>
      obtain ⟨here, others⟩ := List.forall_mem_cons.mp all
      have first := JavaScript.leaves_statement here.code.1 here.code.2 here.shown
      exact first.append (ih others)

theorem Declaration.Declares.leavesTrimmed {declaration : Declaration} {statements : List String}
    (declares : declaration.Declares statements) (width : Nat) :
    LeavesTrimmed (declaration.lines {} width) statements := by
  obtain ⟨doc, rfl, code, filled⟩ := declares
  have unclosed : ∀ line ∈ declaration.doc.flatMap (DocItem.lines (Layout.Margin.inDoc {}) width),
      Unclosed line := by
    intro line member
    obtain ⟨item, found, inside⟩ := List.mem_flatMap.mp member
    have plain : Slashless (Layout.Margin.inDoc {}).text := by
      rw [Slashless]
      decide
    exact DocItem.unclosed_lines plain (by decide) (doc item found) width line inside
  have whole := (JavaScript.leaves_docComment unclosed).append (leaves_of_isStatement code)
  obtain ⟨before, last, split⟩ := (List.eq_nil_or_concat _).resolve_left filled
  have shown : Text.allBlank last = false := (code last (by simp [split])).shown
  rw [List.concat_eq_append] at split
  rw [Declaration.lines_empty]
  rw [split, ← List.append_assoc] at whole ⊢
  exact whole.trimmed shown

def Block.Leaves (width : Nat) (statements : List String) (block : Block) : Prop :=
  LeavesTrimmed (block.lines {} width) statements

namespace Site

variable {site : Site} (tame : site.Tame)

include tame

theorem isStatement_qualify {name : String} (dotted : Name.isDotted name = true) {ending : String}
    (plain : ending.toList.all isPlainCode = true) (shown : Text.allBlank ending = false) :
    ∀ line ∈ [site.scope.qualify name ++ ending], IsStatement line :=
  List.forall_mem_singleton.mpr ((Scope.isCode_qualify tame.named dotted).isStatement plain shown)

theorem declares_functionDeclaration {target : String} (code : IsCode target) (entity : String)
    {function : Function} (named : function.isNamed = true) :
    Ensures (site.functionDeclaration target entity function)
      fun declaration => declaration.Declares [functionStatement target function.parameters] := by
  obtain ⟨name, parameters, returns, description, deprecated⟩ := function
  simp only [Function.isNamed, Function.all, allProperties_eq_all, Bool.and_eq_true] at named
  obtain ⟨⟨dotted, labels⟩, types, result⟩ := named
  have each : ∀ parameter ∈ parameters,
      Ensures (site.parameterItem entity parameter) DocItem.Clean := by
    intro parameter member
    exact site.clean_parameterItem tame entity (List.all_eq_true.mp labels parameter member)
      (List.all_eq_true.mp types parameter member)
  refine (Ensures.mapM_forall each).bind fun items clean => ?_
  refine (site.cleanDoc_returnItems tame entity result).bind fun returned cleanReturn => ?_
  refine Ensures.pure ⟨?_, rfl, ?_, List.cons_ne_nil _ _⟩
  · have both : CleanDoc (items ++ returned) := CleanDoc.append clean cleanReturn
    have doc := cleanDoc_entity tame description deprecated both
      (show '*' ∉ "method".toList by decide) dotted
    rwa [← List.append_assoc (descriptionItems description)] at doc
  · exact List.forall_mem_singleton.mpr (isStatement_functionStatement code labels)

theorem declares_eventDeclaration {event : Event} (dotted : Name.isDotted event.name = true) :
    (site.eventDeclaration event).Declares [site.scope.qualify event.name ++ ";"] where
  doc := cleanDoc_entity tame event.description event.deprecated (cleanDoc_line (by decide))
    (by decide) dotted
  same := rfl
  code := isStatement_qualify tame dotted (by decide) (by decide)
  filled := List.cons_ne_nil _ _

theorem declares_typedefDeclaration {type : TypeDefinition}
    (dotted : Name.isDotted type.name = true) {expression : TypeExpr}
    (slashless : TypeExpr.Lacks '/' expression) :
    (site.typedefDeclaration type expression).Declares [site.scope.qualify type.name ++ ";"] where
  doc := cleanDoc_entity tame type.description type.deprecated
    (cleanDoc_tag (by simp [Slashless]) slashless) (by decide) dotted
  same := rfl
  code := isStatement_qualify tame dotted (by decide) (by decide)
  filled := List.cons_ne_nil _ _

theorem declares_constructorDeclaration {type : TypeDefinition}
    (dotted : Name.isDotted type.name = true) :
    (site.constructorDeclaration type).Declares
      [site.scope.qualify type.name ++ " = function() \x7b\x7d;"] where
  doc := cleanDoc_entity tame type.description type.deprecated
    (CleanDoc.append (cleanDoc_line (by decide)) (cleanDoc_line (by decide))) (by decide) dotted
  same := rfl
  code := isStatement_qualify tame dotted (by decide) (by decide)
  filled := List.cons_ne_nil _ _

theorem declares_enumerationDeclaration {type : TypeDefinition}
    (dotted : Name.isDotted type.name = true) {values : List EnumValue}
    (unbroken : ∀ value ∈ values, isUnbroken value.name = true) :
    Ensures (site.enumerationDeclaration type values) fun declaration =>
      declaration.Declares
        ([site.scope.qualify type.name ++ " = \x7b"] ++ values.map EnumValue.statement ++
          ["\x7d;"]) := by
  rw [enumerationDeclaration]
  split
  · exact Ensures.throw _ _
  · refine Ensures.pure ⟨?_, rfl, ?_, by simp⟩
    · exact cleanDoc_entity tame type.description type.deprecated (cleanDoc_line (by decide))
        (by decide) dotted
    · have opening := isStatement_qualify tame dotted
        (show " = \x7b".toList.all isPlainCode = true by decide) (by decide)
      have members : ∀ line ∈ values.map EnumValue.statement, IsStatement line :=
        List.forall_mem_map.mpr fun value member =>
          EnumValue.isStatement_statement (unbroken value member)
      have closing : IsStatement "\x7d;" := ⟨isCode_of_plain (by decide), by decide⟩
      exact List.forall_mem_append.mpr ⟨List.forall_mem_append.mpr ⟨opening, members⟩,
        List.forall_mem_singleton.mpr closing⟩

theorem isCode_prototype {type : TypeDefinition} (dotted : Name.isDotted type.name = true)
    {name : String} (label : Name.isDotted name = true) :
    IsCode (site.scope.qualify type.name ++ ".prototype." ++ name) := by
  have path := Scope.isCode_qualify tame.named dotted
  have prototype : IsCode ".prototype." := isCode_of_plain (by decide)
  exact (path.append prototype).append (isCode_of_isDotted label)

theorem declares_propertyDeclaration {type : TypeDefinition}
    (dotted : Name.isDotted type.name = true) {property : Property}
    (label : Name.isDotted property.name = true)
    (named : property.type.all TypeKind.isNamed = true) :
    Ensures (site.propertyDeclaration type property) fun declaration =>
      declaration.Declares
        [site.scope.qualify type.name ++ ".prototype." ++ property.name ++ ";"] := by
  have code : ∀ line ∈ [site.scope.qualify type.name ++ ".prototype." ++ property.name ++ ";"],
      IsStatement line :=
    List.forall_mem_singleton.mpr
      ((isCode_prototype tame dotted label).isStatement (by decide) (by decide))
  have declares (typing : List DocItem) (clean : CleanDoc typing) :
      Declaration.Declares
        { doc := descriptionItems property.description ++ typing ++
            [site.link "type" property.name]
          statement :=
            [site.scope.qualify type.name ++ ".prototype." ++ property.name ++ ";"] }
        [site.scope.qualify type.name ++ ".prototype." ++ property.name ++ ";"] :=
    ⟨((cleanDoc_descriptionItems _).append clean).append (cleanDoc_link tame (by decide) label),
      rfl, code, List.cons_ne_nil _ _⟩
  rw [propertyDeclaration]
  cases property.jsexterns with
  | some literal => exact Ensures.pure (declares _ (cleanDoc_literalItems literal))
  | none =>
      have placed := TypeUse.slashless_expressionIn tame.named .field property.optional
        (type.name ++ "." ++ property.name) property.type named
      refine placed.bind fun expression slashless => ?_
      exact Ensures.pure (declares _ (cleanDoc_tag (by simp [Slashless]) slashless))

theorem leaves_typedef (width : Nat) {type : TypeDefinition}
    (dotted : Name.isDotted type.name = true) {outcome : Except Defect TypeExpr}
    (slashless : Ensures outcome (TypeExpr.Lacks '/')) :
    Ensures (do return .single (site.typedefDeclaration type (← outcome)))
      (Block.Leaves width [site.scope.qualify type.name ++ ";"]) :=
  slashless.bind fun _ holds =>
    Ensures.pure ((declares_typedefDeclaration tame dotted holds).leavesTrimmed width)

theorem leaves_cluster (width : Nat) {type : TypeDefinition}
    (dotted : Name.isDotted type.name = true) {properties : List Property}
    {functions : List Function}
    (labels : properties.all (fun property => Name.isDotted property.name) = true)
    (types : allProperties TypeKind.isNamed properties = true)
    (methods : functions.all Function.isNamed = true) :
    Ensures
      (do
        let properties ← properties.mapM (site.propertyDeclaration type)
        let methods ← functions.mapM (site.methodDeclaration type)
        return .cluster (site.constructorDeclaration type :: properties ++ methods))
      (Block.Leaves width
        ([site.scope.qualify type.name ++ " = function() \x7b\x7d;"] ++
          properties.map (fun property =>
            site.scope.qualify type.name ++ ".prototype." ++ property.name ++ ";") ++
          functions.map fun method =>
            functionStatement (site.scope.qualify type.name ++ ".prototype." ++ method.name)
              method.parameters)) := by
  rw [allProperties_eq_all] at types
  rw [List.all_eq_true] at labels types methods
  have property (each : Property) (member : each ∈ properties) :=
    declares_propertyDeclaration tame dotted (labels each member) (types each member)
  have method (each : Function) (member : each ∈ functions) :
      Ensures (site.methodDeclaration type each) fun declaration =>
        declaration.Declares
          [functionStatement (site.scope.qualify type.name ++ ".prototype." ++ each.name)
            each.parameters] := by
    have named := methods each member
    have label : Name.isDotted each.name = true := by
      simp only [Function.isNamed, Bool.and_eq_true] at named
      exact named.1.1
    exact declares_functionDeclaration tame (isCode_prototype tame dotted label) _ named
  refine (Ensures.mapM property).bind fun first declaresFirst => ?_
  refine (Ensures.mapM method).bind fun second declaresSecond => Ensures.pure ?_
  have constructed := ((declares_constructorDeclaration tame dotted).leavesTrimmed width).append
    JavaScript.leavesTrimmed_blank
  have firstLeft := LeavesTrimmed.flatMap_blank
    (declaresFirst.imp fun _ _ declares => declares.leavesTrimmed width)
  have secondLeft := LeavesTrimmed.flatMap_blank
    (declaresSecond.imp fun _ _ declares => declares.leavesTrimmed width)
  have whole := (constructed.append firstLeft).append secondLeft
  rw [List.append_nil] at whole
  rw [List.map_eq_flatMap, List.map_eq_flatMap, Block.Leaves, Block.lines, List.cons_append,
    List.flatMap_cons, List.flatMap_append, ← List.append_assoc]
  exact whole

theorem leaves_typeBlock (width : Nat) {type : TypeDefinition} (named : type.isNamed = true)
    (unbroken : type.isUnbroken = true) :
    Ensures (site.typeBlock type) (Block.Leaves width (type.statements site.scope)) := by
  obtain ⟨name, description, deprecated, definition⟩ := type
  rw [TypeDefinition.isNamed, Bool.and_eq_true] at named
  obtain ⟨dotted, named⟩ := named
  cases definition with
  | enumeration values =>
      have inside : ∀ value ∈ values, isUnbroken value.name = true :=
        List.all_eq_true.mp unbroken
      exact (declares_enumerationDeclaration tame dotted inside).map fun _ declares =>
        declares.leavesTrimmed width
  | record properties functions =>
      simp only [Bool.and_eq_true] at named
      obtain ⟨⟨labels, types⟩, methods⟩ := named
      simp only [typeBlock, TypeDefinition.statements]
      split
      · split
        · exact Ensures.throw _ _
        · rw [TypeKind.isNamed_eq_hasNames] at types
          exact leaves_typedef tame width dotted
            (lacks_objectExpression (foreign_slash tame.named) name labels types)
      · exact leaves_cluster tame width dotted labels types methods
  | choice choices =>
      have named : allChoices TypeKind.isNamed choices = true := named
      rw [TypeKind.isNamed_eq_hasNames] at named
      exact leaves_typedef tame width dotted
        (lacks_unionExpression (foreign_slash tame.named) name named)
  | «alias» target =>
      exact leaves_typedef tame width dotted
        (TypeUse.slashless_expression tame.named name target named)

theorem leaves_functionBlock (width : Nat) {function : Function}
    (named : function.isNamed = true) :
    Ensures (site.entityBlock (.function function))
      (Block.Leaves width (Entity.statements site.scope (.function function))) := by
  have dotted : Name.isDotted function.name = true := by
    simp only [Function.isNamed, Bool.and_eq_true] at named
    exact named.1.1
  have path := Scope.isCode_qualify tame.named dotted
  exact (declares_functionDeclaration tame path function.name named).map fun _ declares =>
    declares.leavesTrimmed width

theorem leaves_eventBlock (width : Nat) {event : Event}
    (dotted : Name.isDotted event.name = true) :
    Ensures (site.entityBlock (.event event))
      (Block.Leaves width (Entity.statements site.scope (.event event))) :=
  Ensures.pure ((declares_eventDeclaration tame dotted).leavesTrimmed width)

end Site

/-! ## Files -/

theorem isUnbroken_append (left right : String) :
    isUnbroken (left ++ right) = (isUnbroken left && isUnbroken right) := by
  rw [isUnbroken, String.toList_append, List.all_append]
  rfl

theorem IsCode.isUnbroken {text : String} (code : IsCode text) : isUnbroken text = true := by
  rw [Externs.isUnbroken, List.all_eq_true]
  intro c member
  rw [code.2 c member]
  rfl

theorem isUnbroken_toString (year : Int) : isUnbroken (toString year) = true := by
  have digits (number : Nat) : isUnbroken number.repr = true := by
    rw [isUnbroken, List.all_eq_true]
    intro c member
    have inDigits : c ∈ Nat.toDigits 10 number := by simpa [Nat.repr] using member
    have digit := Nat.isDigit_of_mem_toDigits (by decide) (by decide) inDigits
    rw [Bool.not_eq_true', Bool.eq_false_iff]
    intro ended
    simp only [isLineTerminator, Bool.or_eq_true, beq_iff_eq] at ended
    rcases ended with ((rfl | rfl) | rfl) | rfl <;> exact absurd digit (by decide)
  cases year with
  | ofNat number => exact digits number
  | negSucc number =>
      have sign : isUnbroken "-" = true := by decide
      exact (isUnbroken_append "-" _).trans (by rw [sign, digits]; rfl)

theorem Provenance.isUnbroken_displayCommand {provenance : Provenance}
    (unbroken : isUnbroken provenance.command = true) :
    isUnbroken provenance.displayCommand = true := by
  rw [isUnbroken, List.all_eq_true] at unbroken ⊢
  intro c member
  rw [Provenance.displayCommand, String.toList_map] at member
  obtain ⟨original, found, rfl⟩ := List.mem_map.mp member
  split
  · decide
  · exact unbroken original found

theorem leavesTrimmed_lineComment {line : String} (opened : ['/', '/'] <+: line.toList)
    (unbroken : isUnbroken line = true) : LeavesTrimmed [line] [] := by
  obtain ⟨text, made⟩ := opened
  have inside : ∀ c ∈ text, isLineTerminator c = false := by
    intro c member
    have all := List.all_eq_true.mp unbroken c (by rw [← made]; simp [member])
    simpa using all
  have comment : Leaves ([] ++ [line]) [] := JavaScript.leaves_lineComment made.symm inside
  refine comment.trimmed ?_
  rw [Text.allBlank, ← made]
  rfl

/-- The comment that names the namespace is closed in its line. -/
theorem leavesTrimmed_overview {name : String} (dotted : Name.isDotted name = true) :
    LeavesTrimmed ["/** @fileoverview Externs generated from namespace: " ++ name ++ " */"] [] := by
  have text : '/' ∉ "* @fileoverview Externs generated from namespace: ".toList := by decide
  have inside : '/' ∉
      "* @fileoverview Externs generated from namespace: ".toList ++ name.toList := by
    rw [List.mem_append, not_or]
    exact ⟨text, Name.slash_not_mem_of_isDotted dotted⟩
  have comment : Leaves
      ([] ++ ["/** @fileoverview Externs generated from namespace: " ++ name ++ " */"]) [] :=
    JavaScript.leaves_blockComment (by simp) (Layout.not_commentEnd_of_slash_not_mem inside)
  exact comment.trimmed (by simp [Text.allBlank, Text.isBlank])

theorem leavesTrimmed_constant : LeavesTrimmed ["/**", " * @const", " */"] [] := by
  have unclosed : ∀ line ∈ [" * @const"], Unclosed line :=
    List.forall_mem_singleton.mpr (Slashless.unclosed (by simp [Slashless]))
  have comment : Leaves (["/**", " * @const"] ++ [" */"]) [] :=
    JavaScript.leaves_docComment unclosed
  exact comment.trimmed (by decide)

theorem IsStatement.leavesTrimmed {line : String} (statement : IsStatement line) :
    LeavesTrimmed [line] [line] := by
  have code : Leaves ([] ++ [line]) [line] :=
    leaves_of_isStatement (List.forall_mem_singleton.mpr statement)
  exact code.trimmed statement.shown

namespace Generator

variable {generator : Generator} {space : Namespace}

/-- The header leaves the object of the namespace. -/
theorem leavesTrimmed_headerLines (root : Name.isDotted generator.conventions.root = true)
    (named : Name.isDotted space.name = true)
    (holder : isUnbroken generator.conventions.copyrightHolder = true)
    (command : isUnbroken generator.provenance.command = true) :
    LeavesTrimmed (generator.headerLines space)
      [generator.conventions.root ++ "." ++ space.name ++ " = \x7b\x7d;"] := by
  have dot : IsCode "." := isCode_of_plain (by decide)
  have path : IsCode (generator.conventions.root ++ "." ++ space.name) :=
    ((isCode_of_isDotted root).append dot).append (isCode_of_isDotted named)
  have copyright : LeavesTrimmed ["// Copyright " ++ toString generator.provenance.year ++ " " ++
      generator.conventions.copyrightHolder ++ ". All rights reserved."] [] := by
    refine leavesTrimmed_lineComment (by simp) ?_
    simp only [isUnbroken_append, isUnbroken_toString, holder]
    decide
  have invoked :
      LeavesTrimmed ["//   " ++ generator.provenance.displayCommand ++ "."] [] := by
    refine leavesTrimmed_lineComment (by simp) ?_
    simp only [isUnbroken_append, Provenance.isUnbroken_displayCommand command]
    decide
  have renamed : LeavesTrimmed
      ["//   '" ++ (generator.conventions.root ++ "." ++ space.name) ++ ".FooType'."] [] := by
    refine leavesTrimmed_lineComment (by simp) ?_
    rw [isUnbroken_append, isUnbroken_append, path.isUnbroken]
    decide
  have empty : " = \x7b\x7d;".toList.all isPlainCode = true := by decide
  have assigned := path.isStatement empty (by decide)
  have blank := JavaScript.leavesTrimmed_blank
  refine copyright.cons ?_
  refine (leavesTrimmed_lineComment (by simp) (by decide)).cons ?_
  refine (leavesTrimmed_lineComment (by simp) (by decide)).cons ?_
  refine blank.cons ?_
  refine (leavesTrimmed_lineComment (by simp) (by decide)).cons ?_
  refine invoked.cons ?_
  refine (leavesTrimmed_lineComment (by simp) (by decide)).cons ?_
  refine renamed.cons ?_
  refine (leavesTrimmed_lineComment (by simp) (by decide)).cons ?_
  refine (leavesTrimmed_lineComment (by simp) (by decide)).cons ?_
  refine blank.cons ?_
  refine (leavesTrimmed_overview named).cons ?_
  refine blank.cons ?_
  exact leavesTrimmed_constant.append (assigned.leavesTrimmed.append blank)

end Generator

/-! ## Entities -/

theorem Namespace.flatMap_statements_entities (scope : Scope) (space : Namespace) :
    space.entities.flatMap (Entity.statements scope) =
      space.types.flatMap (TypeDefinition.statements scope) ++
        space.functions.map (fun declared =>
          functionStatement (scope.qualify declared.name) declared.parameters) ++
        space.events.map fun declared => scope.qualify declared.name ++ ";" := by
  rw [Namespace.entities, List.flatMap_append, List.flatMap_append, List.flatMap_map,
    List.flatMap_map, List.flatMap_map, List.map_eq_flatMap, List.map_eq_flatMap]
  rfl

theorem Site.leaves_entityBlock {site : Site} (tame : site.Tame) (width : Nat)
    {space : Namespace} (named : space.isNamed = true)
    (unbroken : space.types.all TypeDefinition.isUnbroken = true) :
    ∀ entity ∈ space.entities,
      Ensures (site.entityBlock entity) (Block.Leaves width (entity.statements site.scope)) := by
  simp only [Namespace.isNamed, Bool.and_eq_true, List.all_eq_true] at named unbroken
  obtain ⟨⟨⟨-, types⟩, functions⟩, events⟩ := named
  simp only [Namespace.entities, List.forall_mem_append, List.forall_mem_map]
  refine ⟨⟨fun type member => ?_, fun function member => ?_⟩, fun event member => ?_⟩
  · exact leaves_typeBlock tame width (types type member) (unbroken type member)
  · exact leaves_functionBlock tame width (functions function member)
  · exact leaves_eventBlock tame width (events event member)

theorem toList_intercalate_newline {lines : List String} (filled : lines ≠ []) :
    ("\n".intercalate lines ++ "\n").toList = JavaScript.unlines lines := by
  induction lines with
  | nil => exact absurd rfl filled
  | cons line rest ih =>
      cases rest with
      | nil => simp [JavaScript.unlines]
      | cons next more =>
          rw [String.intercalate_cons_of_ne_nil (by simp), String.append_assoc,
            String.toList_append, ih (by simp)]
          simp [JavaScript.unlines]

namespace Generator

theorem leaves_listing {generator : Generator} {space : Namespace}
    (tame : (generator.site space).Tame)
    (holder : isUnbroken generator.conventions.copyrightHolder = true)
    (command : isUnbroken generator.provenance.command = true)
    (named : space.isNamed = true)
    (unbroken : space.types.all TypeDefinition.isUnbroken = true) :
    Ensures (generator.listing space) fun listing =>
      Leaves listing.lines (space.statements generator.conventions.root) ∧
        listing.lines ≠ [] := by
  obtain ⟨root, spaceNamed⟩ := Bool.and_eq_true_iff.mp tame.named
  have header := leavesTrimmed_headerLines root spaceNamed holder command
  have checked : Ensures space.checkNames fun _ => True := fun _ _ => trivial
  refine checked.bind fun _ _ => ?_
  have entities := Site.leaves_entityBlock tame generator.conventions.commentWidth named unbroken
  refine (Ensures.mapM entities).bind fun blocks all => Ensures.pure ?_
  have whole := header.append (LeavesTrimmed.flatMap_blank all)
  rw [Namespace.flatMap_statements_entities, ← List.append_assoc, ← List.append_assoc] at whole
  rw [Layout.Listing.lines_trimEnd, lines_writeBlocks_ofWidth]
  refine ⟨whole.trimmed, fun nothing => ?_⟩
  have blank := whole.empty (List.all_eq_true.mpr (List.rdropWhile_eq_nil_iff.mp nothing))
  exact absurd blank (by simp)

/-- Free text never gets out of the comments: without its comments, a declaration file
has the statements of its namespace and blank lines. -/
theorem codeLines_generate {generator : Generator} {space : Namespace} {text : String}
    (root : Name.isDotted generator.conventions.root = true)
    (link : '*' ∉ generator.conventions.docBaseUrl.toList)
    (holder : isUnbroken generator.conventions.copyrightHolder = true)
    (command : isUnbroken generator.provenance.command = true)
    (named : space.isNamed = true)
    (unbroken : space.types.all TypeDefinition.isUnbroken = true)
    (success : generator.generate space = .ok text) :
    JavaScript.codeLines text = some (space.statements generator.conventions.root) := by
  have spaceNamed : Name.isDotted space.name = true := by
    simp only [Namespace.isNamed, Bool.and_eq_true] at named
    exact named.1.1.1
  have tame : (generator.site space).Tame :=
    ⟨link, Bool.and_eq_true_iff.mpr ⟨root, spaceNamed⟩⟩
  have ensures : Ensures (generator.generate space) fun text =>
      JavaScript.codeLines text = some (space.statements generator.conventions.root) := by
    refine (leaves_listing tame holder command named unbroken).bind fun listing left => ?_
    obtain ⟨leaves, filled⟩ := left
    exact Ensures.pure (JavaScript.codeLines_of_leaves leaves (toList_intercalate_newline filled))
  exact ensures text success

/-- A namespace whose free text tries to close its comments. -/
def hostileSpace : Namespace where
  name := "tabs"
  description := none
  sourceFile := "tabs.json"
  types :=
    [⟨"Mood", some "*/ alert(1); /*", some "*/", .enumeration [⟨"it's // fine", none⟩]⟩,
      ⟨"Tab", none, none,
        .record [⟨"id", ⟨.any, false⟩, true, none, some "*/ steal();\n/*"⟩]
          [⟨"move", [⟨"to", ⟨.integer, false⟩, true, some "*/ // '", none⟩], none, none, none⟩]⟩]
  functions := []
  events := [⟨"onMoved", [], some "**/", none⟩]

/-- A generator that wraps prose after each character. -/
def narrowGenerator : Generator :=
  ⟨{ commentWidth := 1 }, ⟨2012, "tool\\run"⟩⟩

theorem codeLines_generate_hostileSpace :
    ∃ text, narrowGenerator.generate hostileSpace = .ok text ∧
      JavaScript.codeLines text = some
        ["chrome.tabs = \x7b\x7d;",
          "chrome.tabs.Mood = \x7b",
          "  IT_S____FINE: 'it\\'s // fine',",
          "\x7d;",
          "chrome.tabs.Tab = function() \x7b\x7d;",
          "chrome.tabs.Tab.prototype.id;",
          "chrome.tabs.Tab.prototype.move = function(to) \x7b\x7d;",
          "chrome.tabs.onMoved;"] := by
  obtain ⟨text, success⟩ : ∃ text, narrowGenerator.generate hostileSpace = .ok text := ⟨_, rfl⟩
  have root : Name.isDotted narrowGenerator.conventions.root = true := by decide
  have link : '*' ∉ narrowGenerator.conventions.docBaseUrl.toList := by decide
  have holder : isUnbroken narrowGenerator.conventions.copyrightHolder = true := by decide
  have command : isUnbroken narrowGenerator.provenance.command = true := by decide
  have named : hostileSpace.isNamed = true := by decide
  have unbroken : hostileSpace.types.all TypeDefinition.isUnbroken = true := by decide
  exact ⟨text, success, codeLines_generate root link holder command named unbroken success⟩

end Generator

end Externs
