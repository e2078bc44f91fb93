import Externs.Layout.Listing
import Externs.Proofs.TypeExpr.Erased
import Externs.Proofs.TypeExpr.Parts
import Mathlib.Logic.Function.Iterate

/-!
# Types on listings

A type can be written on a listing step by step, with a listing of its own for each part
that is spliced into the one around it. This gives the lines of its expression, and the
same defect where a type cannot be written. What is known of the lines of expressions is
so known of listings.
-/

set_option autoImplicit false

namespace Externs

open Layout (Listing Margin)

/-! ## Writing types -/

/-- Puts a separator in front of each part but the first. -/
def Layout.Listing.separate (position : Nat) (separator : String) (listing : Listing) : Listing :=
  if position = 0 then listing else listing.inline separator

/-- Marks what is listed if the type is optional. -/
def Slot.listing (slot : Slot) (optional : Bool) (listing : Listing) : Listing :=
  if optional then
    match slot with
    | .field => ((Listing.ofLine "(").splice listing.lines).inline "|undefined)"
    | .callbackParameter => listing.inline "|undefined"
    | .parameter => listing.inline "="
    | .result => listing
  else listing

mutual

/-- A type with its nullability, on a listing of its own. -/
def TypeUse.listing (scope : Scope) (entity : String) : TypeUse → Except Defect Listing
  | ⟨kind, nullable⟩ => do
      let inner ← kind.listing scope entity
      return (Listing.ofLine (kind.mark nullable)).splice inner.lines

def TypeKind.listing (scope : Scope) (entity : String) : TypeKind → Except Defect Listing
  | .string => return .ofLine "string"
  | .integer => return .ofLine "number"
  | .number => return .ofLine "number"
  | .boolean => return .ofLine "boolean"
  | .any => return .ofLine "*"
  | .binary => return .ofLine "ArrayBuffer"
  | .object => return .ofLine "Object"
  | .inlineObject properties =>
      if properties.isEmpty then throw (.emptyObject scope.space entity)
      else do
        let inside ← addFields scope entity 0 properties (Listing.openBrace {})
        return inside.closeBrace
  | .array item => do
      let item ← item.listing scope entity
      return ((Listing.ofLine "Array<").splice item.lines).inline ">"
  | .reference name =>
      if isReference name then return .ofLine (scope.qualify name)
      else throw (.malformedReference scope.space entity name)
  | .choices choices =>
      if choices.isEmpty then throw (.emptyChoice scope.space entity)
      else do
        let inside ← addAlternatives scope entity 0 choices (.ofLine "(")
        return inside.inline ")"
  | .function function => function.listing scope entity

def Function.listing (scope : Scope) (entity : String) : Function → Except Defect Listing
  | ⟨name, parameters, returns, _, _⟩ => do
      let path := entity ++ "." ++ name
      let inside ← addParameters scope path 0 parameters (.ofLine "function(")
      addResult scope path returns (inside.inline "):")

/-- Goes on with alternatives, of which the first one has the given position. -/
def addAlternatives (scope : Scope) (entity : String) (position : Nat) :
    List TypeUse → Listing → Except Defect Listing
  | [], listing => return listing
  | first :: rest, listing => do
      let type ← first.listing scope entity
      addAlternatives scope entity (position + 1) rest
        ((listing.separate position "|").splice type.lines)

/-- Goes on with fields, each on a line of its own. -/
def addFields (scope : Scope) (entity : String) (position : Nat) :
    List Property → Listing → Except Defect Listing
  | [], listing => return listing
  | ⟨name, type, optional, _, _⟩ :: rest, listing => do
      let type ← type.listing scope (entity ++ "." ++ name)
      addFields scope entity (position + 1) rest
        (((listing.separate position ",").append (name ++ ": ")).splice
          (Slot.field.listing optional type).lines)

def addParameters (scope : Scope) (path : String) (position : Nat) :
    List Property → Listing → Except Defect Listing
  | [], listing => return listing
  | ⟨name, type, optional, _, _⟩ :: rest, listing => do
      let type ← type.listing scope (path ++ "." ++ name)
      addParameters scope path (position + 1) rest
        ((listing.separate position ", ").splice
          (Slot.callbackParameter.listing optional type).lines)

def addResult (scope : Scope) (path : String) :
    Option Return → Listing → Except Defect Listing
  | none, listing => return listing.inline "void"
  | some ⟨type, _⟩, listing => do
      let type ← type.listing scope path
      return listing.splice type.lines

end

/-- A type in a slot, on a listing of its own. -/
def TypeUse.listingIn (slot : Slot) (optional : Bool) (scope : Scope) (entity : String)
    (type : TypeUse) : Except Defect Listing :=
  slot.listing optional <$> type.listing scope entity

/-! ## Lines of expressions -/

namespace TypeExpr

theorem linesAfter_append (front current : String) (expression : TypeExpr) :
    linesAfter (front ++ current) expression =
      (linesAfter current expression).modifyHead (front ++ ·) := by
  fun_induction linesAfter current expression with
  | case1 current => rfl
  | case2 current content rest ih => rw [linesAfter, String.append_assoc, ih]
  | case3 current depth rest ih => rfl

/-- What follows an expression goes on in its last line. -/
theorem linesAfter_concat {current last : String} {before : List String} {left : TypeExpr}
    (ends : linesAfter current left = before ++ [last]) (right : TypeExpr) :
    linesAfter current (left ++ right) = before ++ linesAfter last right := by
  fun_induction linesAfter current left generalizing before with
  | case1 current =>
      obtain ⟨rfl, same⟩ := List.append_inj' (show [] ++ [current] = before ++ [last] from ends) rfl
      obtain rfl := List.singleton_inj.mp same
      rfl
  | case2 current content rest ih => exact ih ends
  | case3 current depth rest ih =>
      cases before with
      | nil => exact absurd (List.cons.inj ends).2 (linesAfter_ne_nil _ _)
      | cons first more =>
          obtain ⟨rfl, later⟩ := List.cons.inj ends
          exact congrArg (current :: ·) (ih later)

theorem indentation_add (inner outer : Nat) :
    indentation (inner + outer) = indentation outer ++ indentation inner := by
  simp only [indentation, ← String.ofList_append, List.replicate_append_replicate]
  congr 2
  omega

/-- With one more brace around it, an expression has its lines one step further in, but for
the first, which goes on in another line. -/
theorem linesAfter_deepen {current first : String} {rest : List String} {expression : TypeExpr}
    (made : linesAfter current expression = first :: rest) :
    linesAfter current (deepen expression) = first :: rest.map (indentation 1 ++ ·) := by
  fun_induction linesAfter current expression generalizing first rest with
  | case1 current =>
      obtain ⟨rfl, rfl⟩ := List.cons.inj made
      rfl
  | case2 current content more ih => exact ih made
  | case3 current depth more ih =>
      obtain ⟨rfl, rfl⟩ := List.cons.inj made
      refine congrArg (current :: ·) ?_
      cases later : linesAfter (indentation depth) more with
      | nil => exact absurd later (linesAfter_ne_nil _ _)
      | cons head tail =>
          have moved := linesAfter_append (indentation 1) (indentation depth) (deepen more)
          rw [← indentation_add, ih later] at moved
          exact moved

theorem lines_iterate_deepen {first : String} {rest : List String} {expression : TypeExpr}
    (made : expression.lines = first :: rest) (depth : Nat) :
    (deepen^[depth] expression).lines = first :: rest.map (indentation depth ++ ·) := by
  induction depth generalizing rest expression with
  | zero => simpa [indentation] using made
  | succ depth ih =>
      have moved (line : String) :
          indentation depth ++ (indentation 1 ++ line) = indentation (depth + 1) ++ line := by
        rw [Nat.add_comm, indentation_add, String.append_assoc]
      have deeper := ih (linesAfter_deepen made)
      rwa [List.map_map, Function.comp_def, funext moved] at deeper

/-- Only the first line of an expression may be empty. -/
theorem IndentsLines.ne_empty_of_mem {expression : TypeExpr} (indents : IndentsLines expression)
    {first : String} {rest : List String} (made : expression.lines = first :: rest) :
    ∀ line ∈ rest, line ≠ "" := by
  intro line member
  have moved := linesAfter_append "!" "" expression
  rw [show linesAfter "" expression = first :: rest from made] at moved
  have marked : "!" ++ "" ≠ "" := by decide
  have shown := indents.ne_empty (.inl marked)
  rw [moved] at shown
  exact shown line (List.mem_cons_of_mem _ member)

/-- Expressions with a separator in front of each of them, but for the one at the start. -/
def separated (separator : String) (position : Nat) : List TypeExpr → TypeExpr
  | [] => []
  | first :: rest =>
      (if position = 0 then [] else ofText separator) ++ first ++
        separated separator (position + 1) rest

theorem separated_zero (separator : String) (expressions : List TypeExpr) :
    separated separator 0 expressions = joined separator expressions := by
  have goesOn (first : TypeExpr) (position : Nat) (rest : List TypeExpr) :
      first ++ separated separator (position + 1) rest = joined separator (first :: rest) := by
    induction rest generalizing first position with
    | nil => exact List.append_nil first
    | cons next rest ih => simp [separated, joined, ← ih next (position + 1)]
  cases expressions with
  | nil => rfl
  | cons first rest => exact goesOn first 0 rest

end TypeExpr

/-! ## Steps on a listing -/

namespace Layout

theorem Margin.apply_of_ne_empty {margin : Margin} {line : String} (shown : line ≠ "") :
    margin.apply line = margin.text ++ line := by
  rw [Margin.apply, if_neg (by simpa using shown)]

/-- The first of the lines goes on in the last line, and the others come after it. -/
theorem Listing.lines_splice {listing : Listing} {before : List String} {last : String}
    (ends : listing.lines = before ++ [last]) (first : String) (rest : List String) :
    (listing.splice (first :: rest)).lines =
      before ++ (last ++ first) :: rest.map listing.margin.apply := by
  have filled : listing.backwards = last :: before.reverse := by
    simpa [lines] using congrArg List.reverse ends
  rw [splice, lines_appendAll, margin_inline]
  simp [lines, inline, filled]

theorem Listing.lines_inline {listing : Listing} {before : List String} {last : String}
    (ends : listing.lines = before ++ [last]) (content : String) :
    (listing.inline content).lines = before ++ [last ++ content] :=
  lines_splice ends content []

end Layout

/-- A listing has the lines of an expression, and is `depth` braces in. -/
structure Shows (depth : Nat) (listing : Listing) (expression : TypeExpr) : Prop where
  lines : listing.lines = expression.lines
  margin : listing.margin = { indent := Listing.indentStep * depth }
  indents : TypeExpr.IndentsLines expression

namespace Shows

open TypeExpr (ofText deepen linesAfter indentation)

variable {depth : Nat} {listing other : Listing} {left right : TypeExpr}

theorem ofLine (content : String) : Shows 0 (.ofLine content) (ofText content) where
  lines := congrArg ([·]) String.empty_append.symm
  margin := rfl
  indents := trivial

theorem openBrace : Shows 1 (Listing.openBrace {}) (ofText "\x7b") :=
  ⟨rfl, rfl, trivial⟩

theorem exists_last (shows : Shows depth listing left) :
    ∃ before last, listing.lines = before ++ [last] ∧
      ∀ more, (left ++ more).lines = before ++ linesAfter last more := by
  rcases List.eq_nil_or_concat left.lines with none | ⟨before, last, ends⟩
  · exact absurd none (TypeExpr.linesAfter_ne_nil _ _)
  · rw [List.concat_eq_append] at ends
    exact ⟨before, last, shows.lines.trans ends, TypeExpr.linesAfter_concat ends⟩

theorem apply_margin (shows : Shows depth listing left) {line : String} (shown : line ≠ "") :
    listing.margin.apply line = indentation depth ++ line := by
  rw [Margin.apply_of_ne_empty shown, shows.margin]
  exact congrArg (· ++ line) String.empty_append

theorem inline (shows : Shows depth listing left) (content : String) :
    Shows depth (listing.inline content) (left ++ ofText content) where
  lines := by
    obtain ⟨before, last, ends, more⟩ := shows.exists_last
    rw [Listing.lines_inline ends, more]
    rfl
  margin := shows.margin
  indents := shows.indents.append trivial

theorem append (shows : Shows depth listing left) {content : String} (shown : content ≠ "") :
    Shows depth (listing.append content) (left ++ .newline depth :: ofText content) where
  lines := by
    obtain ⟨before, last, ends, more⟩ := shows.exists_last
    rw [Listing.lines_append, ends, shows.apply_margin shown, more, List.append_assoc]
    rfl
  margin := shows.margin
  indents := by
    refine shows.indents.append ?_
    cases depth with
    | zero => exact ⟨⟨content, [], rfl, shown⟩, trivial⟩
    | succ depth => trivial

theorem splice (shows : Shows depth listing left) (inner : Shows 0 other right) :
    Shows depth (listing.splice other.lines) (left ++ deepen^[depth] right) where
  lines := by
    obtain ⟨before, last, ends, more⟩ := shows.exists_last
    cases made : right.lines with
    | nil => exact absurd made (TypeExpr.linesAfter_ne_nil _ _)
    | cons first rest =>
        -- An empty line would get no margin, but only the first line may be empty.
        have indented : rest.map listing.margin.apply = rest.map (indentation depth ++ ·) :=
          List.map_congr_left fun line member =>
            shows.apply_margin (inner.indents.ne_empty_of_mem made line member)
        have goesOn := TypeExpr.linesAfter_append last "" (deepen^[depth] right)
        rw [String.append_empty] at goesOn
        rw [inner.lines, made, Listing.lines_splice ends, more, goesOn, indented]
        exact congrArg (before ++ List.modifyHead (last ++ ·) ·)
          (TypeExpr.lines_iterate_deepen made depth).symm
  margin := (Listing.margin_splice _ _).trans shows.margin
  indents := by
    refine shows.indents.append ?_
    -- Inside of a brace all lines of `right` are indented. Outside it is left as it is.
    cases depth with
    | zero => exact inner.indents
    | succ depth =>
        rw [Function.iterate_succ_apply']
        exact TypeExpr.indentsLines_deepen _

theorem closeBrace (shows : Shows (depth + 1) listing left) :
    Shows depth listing.closeBrace (left ++ .newline depth :: ofText "\x7d") := by
  have outside : Shows depth listing.leaveBrace left := by
    refine ⟨shows.lines, ?_, shows.indents⟩
    rw [Listing.leaveBrace, shows.margin]
    rfl
  exact outside.append (by decide)

theorem separate (shows : Shows depth listing left) (position : Nat) (separator : String) :
    Shows depth (listing.separate position separator)
      (left ++ if position = 0 then [] else ofText separator) := by
  rw [Listing.separate]
  split
  · rwa [List.append_nil]
  · exact shows.inline separator

theorem field (shows : Shows 1 listing left) (inner : Shows 0 other right) (name : String) :
    Shows 1 ((listing.append (name ++ ": ")).splice other.lines)
      (left ++ deepen (.newline 0 :: TypeExpr.field name right)) := by
  have filled : name ++ ": " ≠ "" := by simp
  have named := (shows.append filled).splice inner
  rwa [List.append_assoc] at named

theorem place (shows : Shows 0 listing left) (slot : Slot) (optional : Bool) :
    Shows 0 (slot.listing optional listing) (slot.place optional left) := by
  cases optional with
  | false => exact shows
  | true =>
      cases slot with
      | field => exact ((ofLine "(").splice shows).inline "|undefined)"
      | callbackParameter => exact shows.inline "|undefined"
      | parameter => exact shows.inline "="
      | result => exact shows

end Shows

/-! ## Types -/

theorem objectExpression_cons (scope : Scope) (path : String) (first : Property)
    (rest : List Property) :
    objectExpression scope path (first :: rest) =
      TypeExpr.object <$> fieldExpressions scope path (first :: rest) := by
  simp [objectExpression, fieldExpressions]

theorem unionExpression_cons (scope : Scope) (path : String) (first : TypeUse)
    (rest : List TypeUse) :
    unionExpression scope path (first :: rest) =
      TypeExpr.union <$> alternativeExpressions scope path (first :: rest) := by
  simp [unionExpression, alternativeExpressions]

mutual

theorem TypeUse.shows_listing (scope : Scope) (path : String) (type : TypeUse) :
    Agree (Shows 0) (type.listing scope path) (type.expression scope path) :=
  match type with
  | ⟨kind, nullable⟩ => by
      rw [TypeUse.listing, TypeUse.expression]
      refine (kind.shows_listing scope path).bind fun inner expression shows => ?_
      exact .ok ((Shows.ofLine _).splice shows)

theorem TypeKind.shows_listing (scope : Scope) (path : String) (kind : TypeKind) :
    Agree (Shows 0) (kind.listing scope path) (kind.expression scope path) :=
  match kind with
  | .string => .ok (.ofLine _)
  | .integer => .ok (.ofLine _)
  | .number => .ok (.ofLine _)
  | .boolean => .ok (.ofLine _)
  | .any => .ok (.ofLine _)
  | .binary => .ok (.ofLine _)
  | .object => .ok (.ofLine _)
  | .inlineObject [] => by
      rw [TypeKind.listing, TypeKind.expression]
      exact .error _
  | .inlineObject (first :: rest) => by
      have fields := shows_addFields scope path 0 (first :: rest) Shows.openBrace
      rw [TypeKind.listing, TypeKind.expression, objectExpression_cons, map_eq_pure_bind]
      refine fields.bind fun inside expressions shows => .ok ?_
      rw [TypeExpr.separated_zero] at shows
      exact shows.closeBrace
  | .array item => by
      rw [TypeKind.listing, TypeKind.expression, map_eq_pure_bind]
      refine (item.shows_listing scope path).bind fun inner expression shows => .ok ?_
      exact ((Shows.ofLine _).splice shows).inline ">"
  | .reference name => by
      rw [TypeKind.listing, TypeKind.expression]
      split
      · exact .ok (.ofLine _)
      · exact .error _
  | .choices [] => by
      rw [TypeKind.listing, TypeKind.expression]
      exact .error _
  | .choices (first :: rest) => by
      have alternatives := shows_addAlternatives scope path 0 (first :: rest) (.ofLine "(")
      rw [TypeKind.listing, TypeKind.expression, unionExpression_cons, map_eq_pure_bind]
      refine alternatives.bind fun inside expressions shows => .ok ?_
      rw [TypeExpr.separated_zero] at shows
      exact shows.inline ")"
  | .function function => function.shows_listing scope path

theorem Function.shows_listing (scope : Scope) (path : String) (function : Function) :
    Agree (Shows 0) (function.listing scope path) (function.expression scope path) :=
  match function with
  | ⟨name, parameters, returns, description, deprecated⟩ => by
      rw [Function.listing, Function.expression]
      refine (shows_addParameters scope _ 0 parameters (.ofLine _)).bind ?_
      intro inside expressions shows
      rw [TypeExpr.separated_zero] at shows
      exact (shows_addResult scope _ returns (shows.inline "):")).map_right fun _ _ whole => whole

theorem shows_addAlternatives (scope : Scope) (path : String) (position : Nat)
    (choices : List TypeUse) {listing : Listing} {left : TypeExpr} (shows : Shows 0 listing left) :
    Agree (fun after expressions => Shows 0 after (left ++ .separated "|" position expressions))
      (addAlternatives scope path position choices listing)
      (alternativeExpressions scope path choices) :=
  match choices with
  | [] => .ok (by rwa [TypeExpr.separated, List.append_nil])
  | first :: rest => by
      rw [addAlternatives, alternativeExpressions]
      refine (first.shows_listing scope path).bind fun inner expression here => ?_
      have added := (shows.separate position "|").splice here
      refine (shows_addAlternatives scope path (position + 1) rest added).map_right ?_
      intro after expressions whole
      simpa only [TypeExpr.separated, List.append_assoc, Function.iterate_zero_apply] using whole

theorem shows_addFields (scope : Scope) (path : String) (position : Nat)
    (properties : List Property) {listing : Listing} {left : TypeExpr}
    (shows : Shows 1 listing left) :
    Agree
      (fun after expressions => Shows 1 after (left ++ .separated "," position
        (expressions.map fun field => TypeExpr.deepen (.newline 0 :: field))))
      (addFields scope path position properties listing)
      (fieldExpressions scope path properties) :=
  match properties with
  | [] => .ok (by rwa [List.map_nil, TypeExpr.separated, List.append_nil])
  | ⟨name, type, optional, description, jsexterns⟩ :: rest => by
      rw [addFields, fieldExpressions, Property.fieldExpression, bind_assoc]
      refine (type.shows_listing scope _).bind fun inner expression here => ?_
      have added := (shows.separate position ",").field (here.place .field optional) name
      refine (shows_addFields scope path (position + 1) rest added).map_right ?_
      intro after expressions whole
      simpa only [TypeExpr.separated, List.map_cons, List.append_assoc] using whole

theorem shows_addParameters (scope : Scope) (path : String) (position : Nat)
    (parameters : List Property) {listing : Listing} {left : TypeExpr}
    (shows : Shows 0 listing left) :
    Agree (fun after expressions => Shows 0 after (left ++ .separated ", " position expressions))
      (addParameters scope path position parameters listing)
      (parameterExpressions scope path parameters) :=
  match parameters with
  | [] => .ok (by rwa [TypeExpr.separated, List.append_nil])
  | ⟨name, type, optional, description, jsexterns⟩ :: rest => by
      rw [addParameters, parameterExpressions]
      refine (type.shows_listing scope _).bind fun inner expression here => ?_
      have added := (shows.separate position ", ").splice (here.place .callbackParameter optional)
      refine (shows_addParameters scope path (position + 1) rest added).map_right ?_
      intro after expressions whole
      simpa only [TypeExpr.separated, List.append_assoc, Function.iterate_zero_apply] using whole

theorem shows_addResult (scope : Scope) (path : String) (returns : Option Return)
    {listing : Listing} {left : TypeExpr} (shows : Shows 0 listing left) :
    Agree (fun after expression => Shows 0 after (left ++ expression))
      (addResult scope path returns listing) (resultExpression scope path returns) :=
  match returns with
  | none => .ok (shows.inline "void")
  | some ⟨type, description⟩ => by
      rw [addResult, resultExpression]
      exact (type.shows_listing scope path).map_left fun inner expression here => shows.splice here

end

/-- A type has the same lines on a listing as in its expression, or the same defect. -/
theorem TypeUse.map_lines_listing (scope : Scope) (path : String) (type : TypeUse) :
    Listing.lines <$> type.listing scope path = TypeExpr.lines <$> type.expression scope path :=
  (type.shows_listing scope path).map_eq fun _ _ shows => shows.lines

/-- This holds in each slot as well, whether the type is optional or not. -/
theorem TypeUse.map_lines_listingIn (slot : Slot) (optional : Bool) (scope : Scope) (path : String)
    (type : TypeUse) :
    Listing.lines <$> type.listingIn slot optional scope path =
      TypeExpr.lines <$> type.expressionIn slot optional scope path := by
  rw [TypeUse.listingIn, TypeUse.expressionIn, Functor.map_map, Functor.map_map]
  exact (type.shows_listing scope path).map_eq fun _ _ shows => (shows.place slot optional).lines

/-- What is read off the text of an expression is so read off a listing. -/
theorem TypeUse.map_text_listing (scope : Scope) (path : String) (type : TypeUse) :
    Listing.text <$> type.listing scope path = TypeExpr.toText <$> type.expression scope path :=
  (type.shows_listing scope path).map_eq fun _ _ shows =>
    congrArg ("\n".intercalate ·) shows.lines

end Externs
