import Externs.Proofs.Model.Name

/-!
# What an annotation says

An annotation is the text of a type expression. It says less than the type that
it was made from; this module has the type of what it says, erases the rest from
a type of the model, and shows that the annotation of a type is the text of what
is left.
-/

set_option autoImplicit false

namespace Externs

/-! ## What is said -/

/-- The types that are said by a word of their own. -/
inductive PlainType where
  | string
  | number
  | boolean
  | any
  | binary
  | object
  deriving DecidableEq, Repr

mutual

inductive ErasedType where
  | plain (type : PlainType)
  | named (nullable : Bool) (path : String)
  | array (nullable : Bool) (item : ErasedType)
  | union (nullable : Bool) (alternatives : List ErasedType)
  | object (nullable : Bool) (fields : List ErasedType.Field)
  /-- A function without a result gives back `void`. -/
  | function (nullable : Bool) (parameters : List ErasedType.Parameter)
      (result : Option ErasedType)

structure ErasedType.Field where
  name : String
  type : ErasedType
  optional : Bool

structure ErasedType.Parameter where
  type : ErasedType
  optional : Bool

end

mutual

/-- What the annotation of a type says. -/
def TypeUse.erased (scope : Scope) : TypeUse → ErasedType
  | ⟨kind, nullable⟩ => kind.erased scope nullable

def TypeKind.erased (scope : Scope) (nullable : Bool) : TypeKind → ErasedType
  | .string => .plain .string
  | .integer => .plain .number
  | .number => .plain .number
  | .boolean => .plain .boolean
  | .any => .plain .any
  | .binary => .plain .binary
  | .object => .plain .object
  | .inlineObject properties => .object nullable (erasedFields scope properties)
  | .array item => .array nullable (item.erased scope)
  | .reference name => .named nullable (scope.qualify name)
  | .choices choices => .union nullable (erasedChoices scope choices)
  | .function function => function.erased scope nullable

def Function.erased (scope : Scope) (nullable : Bool) : Function → ErasedType
  | ⟨_, parameters, returns, _, _⟩ =>
      .function nullable (erasedParameters scope parameters) (erasedReturn scope returns)

def erasedFields (scope : Scope) : List Property → List ErasedType.Field
  | [] => []
  | ⟨name, type, optional, _, _⟩ :: rest =>
      ⟨name, type.erased scope, optional⟩ :: erasedFields scope rest

def erasedParameters (scope : Scope) : List Property → List ErasedType.Parameter
  | [] => []
  | ⟨_, type, optional, _, _⟩ :: rest =>
      ⟨type.erased scope, optional⟩ :: erasedParameters scope rest

def erasedChoices (scope : Scope) : List TypeUse → List ErasedType
  | [] => []
  | first :: rest => first.erased scope :: erasedChoices scope rest

def erasedReturn (scope : Scope) : Option Return → Option ErasedType
  | none => none
  | some ⟨type, _⟩ => some (type.erased scope)

end

/-! ## The text of an annotation

It starts with a mark and a word, either of which may be missing. What stands in
brackets follows. -/

def PlainType.word : PlainType → String
  | .string => "string"
  | .number => "number"
  | .boolean => "boolean"
  | .any => ""
  | .binary => "ArrayBuffer"
  | .object => "Object"

/-- The type of all values has a sign in place of a word. -/
def PlainType.sign : PlainType → List Char
  | .any => ['*']
  | _ => []

namespace ErasedType

def mark : ErasedType → List Char
  | .plain _ => []
  | .named nullable _ | .array nullable _ => if nullable then [] else ['!']
  | .union nullable _ | .object nullable _ | .function nullable _ _ =>
      if nullable then ['?'] else []

def word : ErasedType → String
  | .plain type => type.word
  | .named _ path => path
  | .array _ _ => "Array"
  | .union _ _ | .object _ _ => ""
  | .function _ _ _ => "function"

/-- A line break and the indentation of a line with `depth` open braces. -/
def lineBreak (depth : Nat) : List Char :=
  '\n' :: List.replicate (2 * depth) ' '

/-- What marks a field or a parameter as optional. -/
def undefinedMark : List Char :=
  '|' :: "undefined".toList

mutual

/-- What follows the word, with `depth` open braces around it. -/
def body (depth : Nat) : ErasedType → List Char
  | .plain type => type.sign
  | .named _ _ => []
  | .array _ item => '<' :: (item.mark ++ item.word.toList ++ item.body depth) ++ ['>']
  | .union _ [] => ['(', ')']
  | .union _ (first :: rest) =>
      '(' :: (first.mark ++ first.word.toList ++ first.body depth) ++ moreAlternatives depth rest
  | .object _ [] => '\x7b' :: lineBreak depth ++ ['\x7d']
  | .object _ (first :: rest) => '\x7b' :: fieldText (depth + 1) first ++ moreFields depth rest
  | .function _ [] result => '(' :: resultText depth result
  | .function _ (first :: rest) result =>
      '(' :: parameterText depth first ++ moreParameters depth rest ++ resultText depth result

/-- The alternatives after the first one, and the closing bracket. -/
def moreAlternatives (depth : Nat) : List ErasedType → List Char
  | [] => [')']
  | next :: rest =>
      '|' :: (next.mark ++ next.word.toList ++ next.body depth) ++ moreAlternatives depth rest

def fieldText (depth : Nat) : Field → List Char
  | ⟨name, type, optional⟩ =>
      lineBreak depth ++ name.toList ++ [':', ' '] ++ (if optional then ['('] else []) ++
        (type.mark ++ type.word.toList ++ type.body depth) ++
        (if optional then undefinedMark ++ [')'] else [])

/-- The fields after the first one, and the closing bracket. -/
def moreFields (depth : Nat) : List Field → List Char
  | [] => lineBreak depth ++ ['\x7d']
  | next :: rest => ',' :: fieldText (depth + 1) next ++ moreFields depth rest

def parameterText (depth : Nat) : Parameter → List Char
  | ⟨type, optional⟩ =>
      (type.mark ++ type.word.toList ++ type.body depth) ++
        (if optional then undefinedMark else [])

def moreParameters (depth : Nat) : List Parameter → List Char
  | [] => []
  | next :: rest => [',', ' '] ++ parameterText depth next ++ moreParameters depth rest

/-- The bracket that closes the parameters, and what the function gives back. -/
def resultText (depth : Nat) : Option ErasedType → List Char
  | none => [')', ':'] ++ "void".toList
  | some type => [')', ':'] ++ (type.mark ++ type.word.toList ++ type.body depth)

end

/-- The text of an annotation with `depth` open braces around it. -/
def text (depth : Nat) (said : ErasedType) : List Char :=
  said.mark ++ said.word.toList ++ said.body depth

section

variable (depth : Nat) (nullable : Bool)

theorem body_array (item : ErasedType) :
    (array nullable item).body depth = '<' :: item.text depth ++ ['>'] := by
  rw [body, text]

theorem body_union_cons (first : ErasedType) (rest : List ErasedType) :
    (union nullable (first :: rest)).body depth =
      '(' :: first.text depth ++ moreAlternatives depth rest := by
  rw [body, text]

theorem moreAlternatives_cons (next : ErasedType) (rest : List ErasedType) :
    moreAlternatives depth (next :: rest) =
      '|' :: next.text depth ++ moreAlternatives depth rest := by
  rw [moreAlternatives, text]

theorem fieldText_eq (name : String) (type : ErasedType) (optional : Bool) :
    fieldText depth ⟨name, type, optional⟩ =
      lineBreak depth ++ name.toList ++ [':', ' '] ++ (if optional then ['('] else []) ++
        type.text depth ++ (if optional then undefinedMark ++ [')'] else []) := by
  rw [fieldText, text]

theorem parameterText_eq (type : ErasedType) (optional : Bool) :
    parameterText depth ⟨type, optional⟩ =
      type.text depth ++ (if optional then undefinedMark else []) := by
  rw [parameterText, text]

theorem resultText_some (type : ErasedType) :
    resultText depth (some type) = [')', ':'] ++ type.text depth := by
  rw [resultText, text]

end

end ErasedType

/-! ## The text of an expression -/

namespace TypeExpr

open ErasedType (lineBreak)

/-- The text of an expression, with its lines joined by line breaks. -/
def toText (expression : TypeExpr) : String :=
  "\n".intercalate expression.lines

/-- The characters of an expression with `depth` more braces around it. -/
def chars (depth : Nat) : TypeExpr → List Char
  | [] => []
  | .text content :: rest => content.toList ++ chars depth rest
  | .newline inner :: rest => lineBreak (inner + depth) ++ chars depth rest

@[simp] theorem chars_nil (depth : Nat) : chars depth [] = [] := rfl

@[simp] theorem chars_newline (depth inner : Nat) (rest : TypeExpr) :
    chars depth (.newline inner :: rest) = lineBreak (inner + depth) ++ chars depth rest := rfl

@[simp] theorem chars_ofText (depth : Nat) (content : String) :
    chars depth (ofText content) = content.toList := by
  simp [ofText, chars]

@[simp] theorem chars_append (depth : Nat) (front back : TypeExpr) :
    chars depth (front ++ back) = chars depth front ++ chars depth back := by
  induction front with
  | nil => rfl
  | cons piece front ih =>
      cases piece with
      | text content => simp [chars, ih]
      | newline inner => simp [chars, ih]

@[simp] theorem chars_deepen (depth : Nat) (expression : TypeExpr) :
    chars depth (deepen expression) = chars (depth + 1) expression := by
  induction expression with
  | nil => rfl
  | cons piece rest ih =>
      cases piece with
      | text content =>
          have later : chars depth (rest.map Piece.deepen) = chars (depth + 1) rest := ih
          simp [deepen, Piece.deepen, chars, later]
      | newline inner =>
          have later : chars depth (rest.map Piece.deepen) = chars (depth + 1) rest := ih
          simp [deepen, Piece.deepen, chars, later, Nat.add_assoc, Nat.add_comm 1 depth]

theorem chars_joined_cons (depth : Nat) (separator : String) (first : TypeExpr)
    (rest : List TypeExpr) :
    chars depth (joined separator (first :: rest)) =
      chars depth first ++ rest.flatMap fun next => separator.toList ++ chars depth next := by
  induction rest generalizing first with
  | nil => simp [joined]
  | cons next rest ih => simp [joined, ih next]

theorem linesAfter_ne_nil (current : String) (expression : TypeExpr) :
    linesAfter current expression ≠ [] := by
  induction expression generalizing current with
  | nil => simp [linesAfter]
  | cons piece rest ih =>
      cases piece with
      | text content => exact ih (current ++ content)
      | newline depth => simp [linesAfter]

theorem toList_intercalate_linesAfter (current : String) (expression : TypeExpr) :
    ("\n".intercalate (linesAfter current expression)).toList =
      current.toList ++ chars 0 expression := by
  induction expression generalizing current with
  | nil => simp [linesAfter]
  | cons piece rest ih =>
      cases piece with
      | text content => simp [linesAfter, chars, ih]
      | newline depth =>
          have more := linesAfter_ne_nil (indentation depth) rest
          rw [linesAfter, String.intercalate_cons_of_ne_nil more]
          simp [chars, ih, indentation, lineBreak]

theorem toList_toText (expression : TypeExpr) : expression.toText.toList = chars 0 expression := by
  rw [toText, lines, toList_intercalate_linesAfter]
  rfl

end TypeExpr

/-! ## The annotation of a type -/

open TypeExpr (chars)

theorem chars_plain (depth : Nat) (content : String) (type : PlainType)
    (same : type.word.toList ++ type.sign = content.toList) :
    "".toList ++ chars depth (.ofText content) = (ErasedType.plain type).text depth := by
  rw [TypeExpr.chars_ofText, ErasedType.text, ErasedType.body]
  exact same.symm

theorem chars_field (depth : Nat) (name : String) (optional : Bool) {expression : TypeExpr}
    {said : ErasedType} (same : ∀ depth, chars depth expression = said.text depth) :
    ErasedType.lineBreak depth ++
        chars depth (.field name (Slot.field.place optional expression)) =
      ErasedType.fieldText depth ⟨name, said, optional⟩ := by
  rw [ErasedType.fieldText_eq, ← same depth]
  cases optional <;>
    simp [TypeExpr.field, Slot.place, Slot.markOptional, ErasedType.undefinedMark]

theorem chars_parameter (depth : Nat) (optional : Bool) {expression : TypeExpr}
    {said : ErasedType} (same : ∀ depth, chars depth expression = said.text depth) :
    chars depth (Slot.callbackParameter.place optional expression) =
      ErasedType.parameterText depth ⟨said, optional⟩ := by
  rw [ErasedType.parameterText_eq, ← same depth]
  cases optional <;> simp [Slot.place, Slot.markOptional, ErasedType.undefinedMark]

mutual

/-- The expression of a type exists, and its characters are the text of what is left of
the type. -/
theorem TypeUse.chars_expression (scope : Scope) (path : String) (type : TypeUse)
    (spelled : type.all TypeKind.isSpelled = true) :
    ∃ expression, type.expression scope path = .ok expression ∧
      ∀ depth, chars depth expression = (type.erased scope).text depth :=
  match type with
  | ⟨kind, nullable⟩ => by
      rw [TypeUse.all] at spelled
      obtain ⟨expression, success, same⟩ := kind.chars_expression scope path spelled
      refine ⟨.ofText (kind.mark nullable) ++ expression, ?_, ?_⟩
      · rw [TypeUse.expression, success]
        rfl
      · intro depth
        rw [TypeExpr.chars_append, TypeExpr.chars_ofText, TypeUse.erased]
        exact same depth nullable

theorem TypeKind.chars_expression (scope : Scope) (path : String) (kind : TypeKind)
    (spelled : kind.all TypeKind.isSpelled = true) :
    ∃ expression, kind.expression scope path = .ok expression ∧
      ∀ depth nullable, (kind.mark nullable).toList ++ chars depth expression =
        (kind.erased scope nullable).text depth :=
  match kind with
  | .string => ⟨_, rfl, fun depth _ => chars_plain depth "string" .string rfl⟩
  | .integer => ⟨_, rfl, fun depth _ => chars_plain depth "number" .number rfl⟩
  | .number => ⟨_, rfl, fun depth _ => chars_plain depth "number" .number rfl⟩
  | .boolean => ⟨_, rfl, fun depth _ => chars_plain depth "boolean" .boolean rfl⟩
  | .any => ⟨_, rfl, fun depth _ => chars_plain depth "*" .any rfl⟩
  | .binary => ⟨_, rfl, fun depth _ => chars_plain depth "ArrayBuffer" .binary rfl⟩
  | .object => ⟨_, rfl, fun depth _ => chars_plain depth "Object" .object rfl⟩
  | .reference name => by
      have dotted : Name.isDotted name = true := by
        simpa [TypeKind.all, TypeKind.isSpelled, TypeKind.isNamed, TypeKind.isPopulated]
          using spelled
      refine ⟨.ofText (scope.qualify name), ?_, ?_⟩
      · rw [TypeKind.expression, if_pos (Name.isReference_of_isDotted dotted)]
        rfl
      · intro depth nullable
        cases nullable <;> simp [TypeKind.mark, TypeKind.erased, ErasedType.text,
          ErasedType.mark, ErasedType.word, ErasedType.body]
  | .array item => by
      rw [TypeKind.all, Bool.and_eq_true] at spelled
      obtain ⟨expression, success, same⟩ := item.chars_expression scope path spelled.2
      refine ⟨.array expression, ?_, ?_⟩
      · rw [TypeKind.expression, success]
        rfl
      · intro depth nullable
        rw [TypeKind.erased, ErasedType.text, ErasedType.body_array, ← same depth]
        cases nullable <;>
          simp [TypeKind.mark, ErasedType.mark, ErasedType.word, TypeExpr.array]
  | .choices choices => by
      rw [TypeKind.all, Bool.and_eq_true] at spelled
      cases choices with
      | nil => exact absurd spelled.1 (by decide)
      | cons first rest =>
          rw [allChoices, Bool.and_eq_true] at spelled
          obtain ⟨head, headSuccess, headSame⟩ := first.chars_expression scope path spelled.2.1
          obtain ⟨tail, tailSuccess, tailSame⟩ :=
            chars_alternativeExpressions scope path rest spelled.2.2
          refine ⟨.union (head :: tail), ?_, ?_⟩
          · rw [TypeKind.expression, unionExpression, headSuccess, tailSuccess]
            rfl
          · intro depth nullable
            rw [TypeKind.erased, erasedChoices, ErasedType.text, ErasedType.body_union_cons,
              ← headSame depth, ← tailSame depth]
            cases nullable <;>
              simp [TypeKind.mark, ErasedType.mark, ErasedType.word, TypeExpr.union,
                TypeExpr.chars_joined_cons]
  | .inlineObject properties => by
      rw [TypeKind.all, Bool.and_eq_true] at spelled
      cases properties with
      | nil => exact absurd spelled.1 (by decide)
      | cons first rest =>
          obtain ⟨name, type, optional, description, jsexterns⟩ := first
          rw [allProperties, Bool.and_eq_true] at spelled
          obtain ⟨head, headSuccess, headSame⟩ :=
            type.chars_expression scope (path ++ "." ++ name) spelled.2.1
          obtain ⟨tail, tailSuccess, tailSame⟩ :=
            chars_fieldExpressions scope path rest spelled.2.2
          refine ⟨.object (.field name (Slot.field.place optional head) :: tail), ?_, ?_⟩
          · rw [TypeKind.expression, objectExpression, Property.fieldExpression, headSuccess,
              tailSuccess]
            rfl
          · intro depth nullable
            have inner := chars_field (depth + 1) name optional headSame
            rw [TypeKind.erased, erasedFields, ErasedType.text, ErasedType.body, ← inner,
              ← tailSame depth]
            cases nullable <;>
              simp [TypeKind.mark, ErasedType.mark, ErasedType.word, TypeExpr.object,
                TypeExpr.chars_joined_cons, List.flatMap_map]
  | .function function => by
      rw [TypeKind.all, Bool.and_eq_true] at spelled
      obtain ⟨expression, success, same⟩ := function.chars_expression scope path spelled.2
      refine ⟨expression, ?_, ?_⟩
      · rw [TypeKind.expression, success]
      · intro depth nullable
        rw [TypeKind.erased]
        exact same depth nullable

theorem Function.chars_expression (scope : Scope) (path : String) (function : Function)
    (spelled : function.all TypeKind.isSpelled = true) :
    ∃ expression, function.expression scope path = .ok expression ∧
      ∀ depth nullable, (if nullable then "?" else "").toList ++ chars depth expression =
        (function.erased scope nullable).text depth :=
  match function with
  | ⟨name, [], returns, _, _⟩ => by
      rw [Function.all, Bool.and_eq_true] at spelled
      obtain ⟨result, success, same⟩ :=
        chars_resultExpression scope (path ++ "." ++ name) returns spelled.2
      refine ⟨.function [] result, ?_, ?_⟩
      · rw [Function.expression, parameterExpressions, success]
        rfl
      · intro depth nullable
        rw [Function.erased, erasedParameters, ErasedType.text, ErasedType.body, ← same depth]
        cases nullable <;>
          simp [ErasedType.mark, ErasedType.word, TypeExpr.function, TypeExpr.joined]
  | ⟨name, ⟨parameterName, type, optional, _, _⟩ :: rest, returns, _, _⟩ => by
      rw [Function.all, allProperties, Bool.and_eq_true, Bool.and_eq_true] at spelled
      obtain ⟨head, headSuccess, headSame⟩ :=
        type.chars_expression scope (path ++ "." ++ name ++ "." ++ parameterName) spelled.1.1
      obtain ⟨tail, tailSuccess, tailSame⟩ :=
        chars_parameterExpressions scope (path ++ "." ++ name) rest spelled.1.2
      obtain ⟨result, success, same⟩ :=
        chars_resultExpression scope (path ++ "." ++ name) returns spelled.2
      refine ⟨.function (Slot.callbackParameter.place optional head :: tail) result, ?_, ?_⟩
      · rw [Function.expression, parameterExpressions, headSuccess, tailSuccess, success]
        rfl
      · intro depth nullable
        have inner := chars_parameter depth optional headSame
        rw [Function.erased, erasedParameters, ErasedType.text, ErasedType.body, ← inner,
          ← tailSame depth, ← same depth]
        cases nullable <;>
          simp [ErasedType.mark, ErasedType.word, TypeExpr.function, TypeExpr.chars_joined_cons]

theorem chars_alternativeExpressions (scope : Scope) (path : String) (choices : List TypeUse)
    (spelled : allChoices TypeKind.isSpelled choices = true) :
    ∃ expressions, alternativeExpressions scope path choices = .ok expressions ∧
      ∀ depth, (expressions.flatMap fun next => '|' :: chars depth next) ++ [')'] =
        ErasedType.moreAlternatives depth (erasedChoices scope choices) :=
  match choices with
  | [] => ⟨[], rfl, fun _ => rfl⟩
  | first :: rest => by
      rw [allChoices, Bool.and_eq_true] at spelled
      obtain ⟨head, headSuccess, headSame⟩ := first.chars_expression scope path spelled.1
      obtain ⟨tail, tailSuccess, tailSame⟩ :=
        chars_alternativeExpressions scope path rest spelled.2
      refine ⟨head :: tail, ?_, ?_⟩
      · rw [alternativeExpressions, headSuccess, tailSuccess]
        rfl
      · intro depth
        rw [erasedChoices, ErasedType.moreAlternatives_cons, ← headSame depth, ← tailSame depth]
        simp

theorem chars_fieldExpressions (scope : Scope) (path : String) (properties : List Property)
    (spelled : allProperties TypeKind.isSpelled properties = true) :
    ∃ expressions, fieldExpressions scope path properties = .ok expressions ∧
      ∀ depth,
        (expressions.flatMap fun next =>
          ',' :: (ErasedType.lineBreak (depth + 1) ++ chars (depth + 1) next)) ++
            (ErasedType.lineBreak depth ++ ['\x7d']) =
          ErasedType.moreFields depth (erasedFields scope properties) :=
  match properties with
  | [] => ⟨[], rfl, fun _ => rfl⟩
  | ⟨name, type, optional, _, _⟩ :: rest => by
      rw [allProperties, Bool.and_eq_true] at spelled
      obtain ⟨head, headSuccess, headSame⟩ :=
        type.chars_expression scope (path ++ "." ++ name) spelled.1
      obtain ⟨tail, tailSuccess, tailSame⟩ := chars_fieldExpressions scope path rest spelled.2
      refine ⟨.field name (Slot.field.place optional head) :: tail, ?_, ?_⟩
      · rw [fieldExpressions, Property.fieldExpression, headSuccess, tailSuccess]
        rfl
      · intro depth
        have inner := chars_field (depth + 1) name optional headSame
        rw [erasedFields, ErasedType.moreFields, ← inner, ← tailSame depth]
        simp

theorem chars_parameterExpressions (scope : Scope) (path : String) (parameters : List Property)
    (spelled : allProperties TypeKind.isSpelled parameters = true) :
    ∃ expressions, parameterExpressions scope path parameters = .ok expressions ∧
      ∀ depth, (expressions.flatMap fun next => [',', ' '] ++ chars depth next) =
        ErasedType.moreParameters depth (erasedParameters scope parameters) :=
  match parameters with
  | [] => ⟨[], rfl, fun _ => rfl⟩
  | ⟨name, type, optional, _, _⟩ :: rest => by
      rw [allProperties, Bool.and_eq_true] at spelled
      obtain ⟨head, headSuccess, headSame⟩ :=
        type.chars_expression scope (path ++ "." ++ name) spelled.1
      obtain ⟨tail, tailSuccess, tailSame⟩ :=
        chars_parameterExpressions scope path rest spelled.2
      refine ⟨Slot.callbackParameter.place optional head :: tail, ?_, ?_⟩
      · rw [parameterExpressions, headSuccess, tailSuccess]
        rfl
      · intro depth
        have inner := chars_parameter depth optional headSame
        rw [erasedParameters, ErasedType.moreParameters, ← inner, ← tailSame depth]
        simp

theorem chars_resultExpression (scope : Scope) (path : String) (returns : Option Return)
    (spelled : allReturn TypeKind.isSpelled returns = true) :
    ∃ expression, resultExpression scope path returns = .ok expression ∧
      ∀ depth, "):".toList ++ chars depth expression =
        ErasedType.resultText depth (erasedReturn scope returns) :=
  match returns with
  | none => ⟨.ofText "void", rfl, fun _ => by simp [erasedReturn, ErasedType.resultText]⟩
  | some ⟨type, _⟩ => by
      rw [allReturn] at spelled
      obtain ⟨expression, success, same⟩ := type.chars_expression scope path spelled
      refine ⟨expression, ?_, ?_⟩
      · rw [resultExpression, success]
      · intro depth
        rw [erasedReturn, ErasedType.resultText_some, same depth]
        rfl

end

end Externs
