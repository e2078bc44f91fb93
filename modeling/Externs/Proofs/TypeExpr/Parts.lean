import Externs.Proofs.Model.Name
import Externs.Proofs.Outcome

/-!
# What expressions are made of

The expression of a type is put together from fixed texts and from names. A character
that is in none of them is nowhere in the expression; so an expression of names that are
dotted identifiers has no slash, and can neither open nor close a comment. A line that
goes on after some text is never empty.
-/

set_option autoImplicit false

namespace Externs

/-! ## Parts of an expression -/

namespace TypeExpr

/-- The characters that expressions have whatever the names are. -/
def isFixed (c : Char) : Bool :=
  c.isAlpha || "()<>\x7b\x7d|,:. =!?*".toList.contains c

/-- A fixed text without braces. -/
def isInline (content : String) : Bool :=
  content.toList.all fun c => isFixed c && c != '\x7b' && c != '\x7d'

/-- A field with a name that passes a test. -/
def IsLabelled (test : String → Bool) (expression : TypeExpr) : Prop :=
  ∃ name type, test name = true ∧ expression = field name type

/-- What the expressions of a scope are put together from: fixed texts, names that pass a
test, and objects of fields with such names. Braces are those of objects. -/
inductive Written (scope : Scope) (test : String → Bool) : TypeExpr → Prop where
  | nil : Written scope test []
  | fixed {content : String} : isInline content = true → Written scope test (ofText content)
  | reference {name : String} :
      test name = true → Written scope test (ofText (scope.qualify name))
  | label {name : String} : test name = true → Written scope test (ofText (name ++ ": "))
  | append {left right : TypeExpr} :
      Written scope test left → Written scope test right → Written scope test (left ++ right)
  | object {fields : List TypeExpr} :
      (∀ field ∈ fields, IsLabelled test field) → (∀ field ∈ fields, Written scope test field) →
      Written scope test (object fields)

section

variable {scope : Scope} {test : String → Bool}

theorem written_joined {separator : String} (fixed : isInline separator = true)
    {expressions : List TypeExpr}
    (written : ∀ expression ∈ expressions, Written scope test expression) :
    Written scope test (joined separator expressions) := by
  fun_induction joined separator expressions with
  | case1 => exact .nil
  | case2 last => exact written last List.mem_cons_self
  | case3 first rest more ih =>
      have others := ih fun later member => written later (List.mem_cons_of_mem _ member)
      exact ((written first List.mem_cons_self).append (.fixed fixed)).append others

theorem Written.place {expression : TypeExpr} (written : Written scope test expression)
    (slot : Slot) (optional : Bool) : Written scope test (slot.place optional expression) := by
  cases optional with
  | false => exact written
  | true =>
      cases slot with
      | field => exact ((Written.fixed (by decide)).append written).append (.fixed (by decide))
      | callbackParameter => exact written.append (.fixed (by decide))
      | parameter => exact written.append (.fixed (by decide))
      | result => exact written

theorem written_union {alternatives : List TypeExpr}
    (written : ∀ alternative ∈ alternatives, Written scope test alternative) :
    Written scope test (union alternatives) :=
  ((Written.fixed (by decide)).append (written_joined (by decide) written)).append
    (.fixed (by decide))

theorem written_function {parameters : List TypeExpr} {result : TypeExpr}
    (written : ∀ parameter ∈ parameters, Written scope test parameter)
    (inResult : Written scope test result) : Written scope test (function parameters result) :=
  (((Written.fixed (by decide)).append (written_joined (by decide) written)).append
    (.fixed (by decide))).append inResult

end

/-! ## Characters of an expression -/

/-- An expression of texts without a character. A line that is broken off is one of the
fields between two braces, or it starts with the second brace. -/
inductive Lacks (c : Char) : TypeExpr → Prop where
  | nil : Lacks c []
  | text {content : String} : c ∉ content.toList → Lacks c (ofText content)
  | append {left right : TypeExpr} : Lacks c left → Lacks c right → Lacks c (left ++ right)
  | field {expression : TypeExpr} :
      Lacks c expression → Lacks c (deepen (.newline 0 :: expression))
  | close : c ∉ "\x7d".toList → Lacks c (.newline 0 :: ofText "\x7d")

section

variable {c : Char} (foreign : isFixed c = false)

include foreign

theorem not_mem_of_isFixed {text : List Char} (fixed : text.all isFixed = true) : c ∉ text := by
  intro member
  have inFixed := List.all_eq_true.mp fixed c member
  rw [foreign] at inFixed
  cases inFixed

theorem lacks_fixed {content : String} (fixed : content.toList.all isFixed = true) :
    Lacks c (ofText content) :=
  .text (not_mem_of_isFixed foreign fixed)

theorem lacks_joined {separator : String} (fixed : separator.toList.all isFixed = true)
    {expressions : List TypeExpr} (lacks : ∀ expression ∈ expressions, Lacks c expression) :
    Lacks c (joined separator expressions) := by
  fun_induction joined separator expressions with
  | case1 => exact .nil
  | case2 last => exact lacks last List.mem_cons_self
  | case3 first rest more ih =>
      have others := ih fun later member => lacks later (List.mem_cons_of_mem _ member)
      exact ((lacks first List.mem_cons_self).append (lacks_fixed foreign fixed)).append others

theorem lacks_object {fields : List TypeExpr} (lacks : ∀ field ∈ fields, Lacks c field) :
    Lacks c (object fields) := by
  have inside : Lacks c (joined "," (fields.map fun field => deepen (.newline 0 :: field))) := by
    apply lacks_joined foreign (by decide)
    exact List.forall_mem_map.mpr fun field member => .field (lacks field member)
  exact ((lacks_fixed foreign (by decide)).append inside).append
    (.close (not_mem_of_isFixed foreign (by decide)))

end

/-! ## Lines of an expression -/

theorem Lacks.not_mem_of_text {c : Char} {expression : TypeExpr} (lacks : Lacks c expression) :
    ∀ content, .text content ∈ expression → c ∉ content.toList := by
  induction lacks with
  | nil => exact fun content member => nomatch member
  | @text own plain =>
      intro content member
      obtain rfl : content = own := by simpa [ofText] using member
      exact plain
  | append _ _ inLeft inRight =>
      intro content member
      rcases List.mem_append.mp member with member | member
      · exact inLeft content member
      · exact inRight content member
  | field _ ih =>
      intro content member
      obtain ⟨piece, found, same⟩ := List.mem_map.mp member
      cases piece with
      | text inner =>
          obtain rfl := Piece.text.inj same
          exact ih inner (by simpa using found)
      | newline depth => cases same
  | close plain =>
      intro content member
      obtain rfl : content = "\x7d" := by simpa [ofText] using member
      exact plain

/-- What is not in the texts of an expression is not in its lines. -/
theorem Lacks.lines {c : Char} (foreign : isFixed c = false) {expression : TypeExpr}
    (lacks : Lacks c expression) {current : String} (start : c ∉ current.toList) :
    ∀ line ∈ linesAfter current expression, c ∉ line.toList := by
  have texts := lacks.not_mem_of_text
  clear lacks
  induction expression generalizing current with
  | nil => simpa [linesAfter] using start
  | cons piece rest ih =>
      have others := fun content member => texts content (List.mem_cons_of_mem _ member)
      cases piece with
      | text content =>
          have inText := texts content List.mem_cons_self
          exact ih (by simp [start, inText]) others
      | newline depth =>
          have inIndent : c ∉ (indentation depth).toList := by
            apply not_mem_of_isFixed foreign
            simp [indentation, isFixed]
          intro line member
          rcases List.mem_cons.mp member with rfl | later
          · exact start
          · exact ih inIndent others line later

def StartsWithText (expression : TypeExpr) : Prop :=
  ∃ content more, expression = .text content :: more ∧ content ≠ ""

/-- A new line is indented, or text follows right after its break. -/
def IndentsLines : TypeExpr → Prop
  | [] => True
  | .text _ :: rest => IndentsLines rest
  | .newline 0 :: rest => StartsWithText rest ∧ IndentsLines rest
  | .newline (_ + 1) :: rest => IndentsLines rest

theorem IndentsLines.append {left right : TypeExpr} (inLeft : IndentsLines left)
    (inRight : IndentsLines right) : IndentsLines (left ++ right) := by
  fun_induction IndentsLines left with
  | case1 => exact inRight
  | case2 content rest ih => exact ih inLeft
  | case3 rest ih =>
      obtain ⟨⟨content, more, rfl, shown⟩, others⟩ := inLeft
      exact ⟨⟨content, more ++ right, rfl, shown⟩, ih others⟩
  | case4 depth rest ih => exact ih inLeft

theorem indentsLines_deepen (expression : TypeExpr) : IndentsLines (deepen expression) := by
  induction expression with
  | nil => trivial
  | cons piece rest ih => cases piece <;> exact ih

theorem Lacks.indentsLines {c : Char} {expression : TypeExpr} (lacks : Lacks c expression) :
    IndentsLines expression := by
  induction lacks with
  | nil => trivial
  | text _ => trivial
  | append _ _ inLeft inRight => exact inLeft.append inRight
  | field _ _ => exact indentsLines_deepen _
  | close _ => exact ⟨⟨"\x7d", [], rfl, by decide⟩, trivial⟩

/-- A line goes on after some text, or it starts with some. -/
theorem IndentsLines.ne_empty {expression : TypeExpr} (indents : IndentsLines expression)
    {current : String} (shown : current ≠ "" ∨ StartsWithText expression) :
    ∀ line ∈ linesAfter current expression, line ≠ "" := by
  fun_induction linesAfter current expression with
  | case1 current =>
      rcases shown with shown | ⟨content, more, same, -⟩
      · exact List.forall_mem_singleton.mpr shown
      · cases same
  | case2 current content rest ih =>
      refine ih indents (.inl ?_)
      rcases shown with shown | ⟨other, more, same, filled⟩
      · simp [shown]
      · cases same
        simp [filled]
  | case3 current depth rest ih =>
      have before : current ≠ "" := by
        rcases shown with shown | ⟨content, more, same, -⟩
        · exact shown
        · cases same
      refine List.forall_mem_cons.mpr ⟨before, ?_⟩
      cases depth with
      | zero => exact ih indents.2 (.inr indents.1)
      | succ depth => exact ih indents (.inl (by simp [indentation]))

end TypeExpr

/-! ## Expressions of types -/

/-- The names that a type is written with pass a test: the one that it refers to, and
those of its fields. -/
def TypeKind.hasNames (test : String → Bool) : TypeKind → Bool
  | .reference name => test name
  | .inlineObject properties => properties.all fun property => test property.name
  | _ => true

theorem TypeKind.isNamed_eq_hasNames : TypeKind.isNamed = TypeKind.hasNames Name.isDotted := by
  funext kind
  cases kind <;> rfl

/-- A character that is in no fixed text, in no name of a scope, and in no name that
passes a test. -/
structure Foreign (c : Char) (scope : Scope) (test : String → Bool) : Prop where
  fixed : TypeExpr.isFixed c = false
  root : c ∉ scope.root.toList
  space : c ∉ scope.space.toList
  names : ∀ name, test name = true → c ∉ name.toList

theorem TypeKind.isInline_mark (kind : TypeKind) (nullable : Bool) :
    TypeExpr.isInline (kind.mark nullable) = true := by
  cases kind <;> cases nullable <;> simp [TypeKind.mark, TypeExpr.isInline, TypeExpr.isFixed]

section

variable {scope : Scope} {test : String → Bool}

mutual

theorem TypeUse.written_expression (path : String) (type : TypeUse)
    (names : type.all (TypeKind.hasNames test) = true) :
    Ensures (type.expression scope path) (TypeExpr.Written scope test) :=
  match type with
  | ⟨kind, nullable⟩ => by
      rw [TypeUse.all] at names
      rw [TypeUse.expression]
      refine (kind.written_expression path names).bind fun expression written => ?_
      exact Ensures.pure ((TypeExpr.Written.fixed (kind.isInline_mark nullable)).append written)

theorem TypeKind.written_expression (path : String) (kind : TypeKind)
    (names : kind.all (TypeKind.hasNames test) = true) :
    Ensures (kind.expression scope path) (TypeExpr.Written scope test) :=
  match kind with
  | .string => Ensures.pure (.fixed (by decide))
  | .integer => Ensures.pure (.fixed (by decide))
  | .number => Ensures.pure (.fixed (by decide))
  | .boolean => Ensures.pure (.fixed (by decide))
  | .any => Ensures.pure (.fixed (by decide))
  | .binary => Ensures.pure (.fixed (by decide))
  | .object => Ensures.pure (.fixed (by decide))
  | .reference name => by
      rw [TypeKind.all] at names
      rw [TypeKind.expression]
      split
      · exact Ensures.pure (.reference names)
      · exact Ensures.throw _ _
  | .array item => by
      rw [TypeKind.all, Bool.and_eq_true] at names
      rw [TypeKind.expression]
      refine (item.written_expression path names.2).map fun expression written => ?_
      exact ((TypeExpr.Written.fixed (by decide)).append written).append (.fixed (by decide))
  | .inlineObject [] => by
      rw [TypeKind.expression]
      exact Ensures.throw _ _
  | .inlineObject (first :: rest) => by
      rw [TypeKind.all, TypeKind.hasNames, allProperties_eq_all, List.all_cons, List.all_cons,
        Bool.and_eq_true, Bool.and_eq_true, Bool.and_eq_true] at names
      obtain ⟨⟨label, labels⟩, type, types⟩ := names
      rw [TypeKind.expression, objectExpression]
      refine (first.written_fieldExpression path label type).bind fun head written => ?_
      refine (written_fieldExpressions path rest labels types).bind fun others all => ?_
      refine Ensures.pure (.object ?_ ?_)
      · exact List.forall_mem_cons.mpr ⟨written.1, fun field member => (all field member).1⟩
      · exact List.forall_mem_cons.mpr ⟨written.2, fun field member => (all field member).2⟩
  | .choices [] => by
      rw [TypeKind.expression]
      exact Ensures.throw _ _
  | .choices (first :: rest) => by
      rw [TypeKind.all, allChoices, Bool.and_eq_true, Bool.and_eq_true] at names
      rw [TypeKind.expression, unionExpression]
      refine (first.written_expression path names.2.1).bind fun head written => ?_
      refine (written_alternativeExpressions path rest names.2.2).bind fun others all => ?_
      exact Ensures.pure (TypeExpr.written_union (List.forall_mem_cons.mpr ⟨written, all⟩))
  | .function function => by
      rw [TypeKind.all, Bool.and_eq_true] at names
      exact function.written_expression path names.2

theorem Function.written_expression (path : String) (function : Function)
    (names : function.all (TypeKind.hasNames test) = true) :
    Ensures (function.expression scope path) (TypeExpr.Written scope test) :=
  match function with
  | ⟨name, parameters, returns, description, deprecated⟩ => by
      rw [Function.all, Bool.and_eq_true] at names
      rw [Function.expression]
      refine (written_parameterExpressions _ parameters names.1).bind fun inputs all => ?_
      refine (written_resultExpression _ returns names.2).bind fun result written => ?_
      exact Ensures.pure (TypeExpr.written_function all written)

theorem written_alternativeExpressions (path : String) (choices : List TypeUse)
    (names : allChoices (TypeKind.hasNames test) choices = true) :
    Ensures (alternativeExpressions scope path choices)
      fun expressions => ∀ expression ∈ expressions, TypeExpr.Written scope test expression :=
  match choices with
  | [] => Ensures.pure fun _ member => nomatch member
  | first :: rest => by
      rw [allChoices, Bool.and_eq_true] at names
      rw [alternativeExpressions]
      refine (first.written_expression path names.1).bind fun head written => ?_
      refine (written_alternativeExpressions path rest names.2).bind fun others all => ?_
      exact Ensures.pure (List.forall_mem_cons.mpr ⟨written, all⟩)

theorem Property.written_fieldExpression (path : String) (property : Property)
    (label : test property.name = true)
    (names : property.type.all (TypeKind.hasNames test) = true) :
    Ensures (property.fieldExpression scope path) fun expression =>
      TypeExpr.IsLabelled test expression ∧ TypeExpr.Written scope test expression :=
  match property with
  | ⟨name, type, optional, description, jsexterns⟩ => by
      rw [Property.fieldExpression]
      refine (type.written_expression _ names).bind fun expression written => Ensures.pure ?_
      exact ⟨⟨name, _, label, rfl⟩,
        (TypeExpr.Written.label label).append (written.place .field optional)⟩

theorem written_fieldExpressions (path : String) (properties : List Property)
    (labels : properties.all (fun property => test property.name) = true)
    (names : properties.all (fun property => property.type.all (TypeKind.hasNames test)) = true) :
    Ensures (fieldExpressions scope path properties) fun expressions =>
      ∀ expression ∈ expressions,
        TypeExpr.IsLabelled test expression ∧ TypeExpr.Written scope test expression :=
  match properties with
  | [] => Ensures.pure fun _ member => nomatch member
  | first :: rest => by
      rw [List.all_cons, Bool.and_eq_true] at labels names
      rw [fieldExpressions]
      refine (first.written_fieldExpression path labels.1 names.1).bind fun head written => ?_
      refine (written_fieldExpressions path rest labels.2 names.2).bind fun others all => ?_
      exact Ensures.pure (List.forall_mem_cons.mpr ⟨written, all⟩)

theorem written_parameterExpressions (path : String) (parameters : List Property)
    (names : allProperties (TypeKind.hasNames test) parameters = true) :
    Ensures (parameterExpressions scope path parameters)
      fun expressions => ∀ expression ∈ expressions, TypeExpr.Written scope test expression :=
  match parameters with
  | [] => Ensures.pure fun _ member => nomatch member
  | ⟨name, type, optional, description, jsexterns⟩ :: rest => by
      rw [allProperties, Bool.and_eq_true] at names
      rw [parameterExpressions]
      refine (type.written_expression _ names.1).bind fun first written => ?_
      refine (written_parameterExpressions path rest names.2).bind fun others all => ?_
      exact Ensures.pure
        (List.forall_mem_cons.mpr ⟨written.place .callbackParameter optional, all⟩)

theorem written_resultExpression (path : String) (returns : Option Return)
    (names : allReturn (TypeKind.hasNames test) returns = true) :
    Ensures (resultExpression scope path returns) (TypeExpr.Written scope test) :=
  match returns with
  | none => Ensures.pure (.fixed (by decide))
  | some ⟨type, _⟩ => type.written_expression path (by rwa [allReturn] at names)

end

end

/-! ## Characters of the expressions of types -/

section

variable {c : Char} {scope : Scope} {test : String → Bool} (foreign : Foreign c scope test)

include foreign

theorem Scope.not_mem_qualify {name : String} (plain : c ∉ name.toList) :
    c ∉ (scope.qualify name).toList := by
  have dot : c ∉ ".".toList := TypeExpr.not_mem_of_isFixed foreign.fixed (by decide)
  rw [Scope.qualify]
  split <;>
    simp only [String.toList_append, List.mem_append, not_or, foreign.root, foreign.space, dot,
      plain, not_false_eq_true, and_self]

theorem TypeExpr.Written.lacks {expression : TypeExpr}
    (written : TypeExpr.Written scope test expression) : TypeExpr.Lacks c expression := by
  induction written with
  | nil => exact .nil
  | fixed inline =>
      refine lacks_fixed foreign.fixed (List.all_eq_true.mpr fun d member => ?_)
      have kept := List.all_eq_true.mp inline d member
      rw [Bool.and_assoc] at kept
      exact (Bool.and_eq_true_iff.mp kept).1
  | @reference name named =>
      exact .text (Scope.not_mem_qualify foreign (foreign.names name named))
  | @label name named =>
      have colon : c ∉ ": ".toList := not_mem_of_isFixed foreign.fixed (by decide)
      refine .text ?_
      rw [String.toList_append, List.mem_append, not_or]
      exact ⟨foreign.names name named, colon⟩
  | append _ _ inLeft inRight => exact inLeft.append inRight
  | object _ _ ih => exact lacks_object foreign.fixed ih

theorem TypeUse.lacks_expression (path : String) (type : TypeUse)
    (names : type.all (TypeKind.hasNames test) = true) :
    Ensures (type.expression scope path) (TypeExpr.Lacks c) :=
  (type.written_expression path names).imp fun _ written => written.lacks foreign

theorem TypeUse.lacks_expressionIn (slot : Slot) (optional : Bool) (path : String)
    (type : TypeUse) (names : type.all (TypeKind.hasNames test) = true) :
    Ensures (type.expressionIn slot optional scope path) (TypeExpr.Lacks c) :=
  (type.written_expression path names).map fun _ written =>
    (written.place slot optional).lacks foreign

theorem lacks_objectExpression (path : String) {properties : List Property}
    (labels : properties.all (fun property => test property.name) = true)
    (types : allProperties (TypeKind.hasNames test) properties = true) :
    Ensures (objectExpression scope path properties) (TypeExpr.Lacks c) := by
  have names : (TypeKind.inlineObject properties).all (TypeKind.hasNames test) = true := by
    rw [TypeKind.all, Bool.and_eq_true]
    exact ⟨labels, types⟩
  have written : Ensures ((TypeKind.inlineObject properties).expression scope path) _ :=
    TypeKind.written_expression path _ names
  rw [TypeKind.expression] at written
  exact written.imp fun _ written => written.lacks foreign

theorem lacks_unionExpression (path : String) {choices : List TypeUse}
    (names : allChoices (TypeKind.hasNames test) choices = true) :
    Ensures (unionExpression scope path choices) (TypeExpr.Lacks c) := by
  have names : (TypeKind.choices choices).all (TypeKind.hasNames test) = true := by
    rw [TypeKind.all, Bool.and_eq_true]
    exact ⟨rfl, names⟩
  have written : Ensures ((TypeKind.choices choices).expression scope path) _ :=
    TypeKind.written_expression path _ names
  rw [TypeKind.expression] at written
  exact written.imp fun _ written => written.lacks foreign

end

/-! ## Names that are dotted identifiers -/

theorem Name.not_mem_of_isDotted {c : Char} (other : Name.isDottedPart c = false) {name : String}
    (dotted : Name.isDotted name = true) : c ∉ name.toList := by
  intro member
  have part := Name.isDottedPart_of_isDotted dotted c member
  rw [other] at part
  cases part

theorem foreign_of_isDottedPart {c : Char} (fixed : TypeExpr.isFixed c = false)
    (other : Name.isDottedPart c = false) {scope : Scope} (named : scope.isNamed = true) :
    Foreign c scope Name.isDotted where
  fixed := fixed
  root := Name.not_mem_of_isDotted other (Bool.and_eq_true_iff.mp named).1
  space := Name.not_mem_of_isDotted other (Bool.and_eq_true_iff.mp named).2
  names _ := Name.not_mem_of_isDotted other

theorem Name.slash_not_mem_of_isDotted {name : String} (dotted : Name.isDotted name = true) :
    '/' ∉ name.toList :=
  Name.not_mem_of_isDotted (by decide) dotted

theorem foreign_slash {scope : Scope} (named : scope.isNamed = true) :
    Foreign '/' scope Name.isDotted :=
  foreign_of_isDottedPart (by decide) (by decide) named

section

variable {scope : Scope} (named : scope.isNamed = true)

include named

theorem TypeUse.slashless_expression (path : String) (type : TypeUse)
    (names : type.all TypeKind.isNamed = true) :
    Ensures (type.expression scope path) (TypeExpr.Lacks '/') := by
  rw [TypeKind.isNamed_eq_hasNames] at names
  exact type.lacks_expression (foreign_slash named) path names

theorem TypeUse.slashless_expressionIn (slot : Slot) (optional : Bool) (path : String)
    (type : TypeUse) (names : type.all TypeKind.isNamed = true) :
    Ensures (type.expressionIn slot optional scope path) (TypeExpr.Lacks '/') := by
  rw [TypeKind.isNamed_eq_hasNames] at names
  exact type.lacks_expressionIn (foreign_slash named) slot optional path names

end

end Externs
