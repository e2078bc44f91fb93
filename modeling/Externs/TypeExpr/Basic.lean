/-!
# Type expressions

What a doc comment says about a type is a sequence of texts and line breaks. A
break carries the depth of the line after it, which is the number of braces that
are open there, so two expressions are joined by joining their sequences.
-/

set_option autoImplicit false

namespace Externs

inductive TypeExpr.Piece where
  | text (content : String)
  /-- A new line, at a depth of two spaces each. -/
  | newline (depth : Nat)
  deriving DecidableEq, Repr

/-- The text of a type, which may take several lines. -/
abbrev TypeExpr : Type := List TypeExpr.Piece

namespace TypeExpr

def ofText (content : String) : TypeExpr :=
  [.text content]

/-- What a line at the given depth starts with. -/
def indentation (depth : Nat) : String :=
  String.ofList (List.replicate (2 * depth) ' ')

/-- The lines of an expression that goes on after `current`. -/
def linesAfter (current : String) : TypeExpr → List String
  | [] => [current]
  | .text content :: rest => linesAfter (current ++ content) rest
  | .newline depth :: rest => current :: linesAfter (indentation depth) rest

/-- The lines of an expression. There is at least one. -/
def lines (expression : TypeExpr) : List String :=
  linesAfter "" expression

/-- A piece with one more brace around it. -/
def Piece.deepen : Piece → Piece
  | .text content => .text content
  | .newline depth => .newline (depth + 1)

/-- An expression with one more brace around it. -/
def deepen (expression : TypeExpr) : TypeExpr :=
  expression.map Piece.deepen

/-- Puts expressions one after the other, with `separator` between them. -/
def joined (separator : String) : List TypeExpr → TypeExpr
  | [] => []
  | [last] => last
  | first :: rest => first ++ ofText separator ++ joined separator rest

/-- Alternatives in parentheses: `(A|B|C)`. -/
def union (alternatives : List TypeExpr) : TypeExpr :=
  ofText "(" ++ joined "|" alternatives ++ ofText ")"

/-- Fields in braces, each on a line of its own. -/
def object (fields : List TypeExpr) : TypeExpr :=
  ofText "\x7b" ++ joined "," (fields.map fun field => deepen (.newline 0 :: field)) ++
    (.newline 0 :: ofText "\x7d")

/-- `Array<T>` -/
def array (item : TypeExpr) : TypeExpr :=
  ofText "Array<" ++ item ++ ofText ">"

/-- `function(A, B):R` -/
def function (parameters : List TypeExpr) (result : TypeExpr) : TypeExpr :=
  ofText "function(" ++ joined ", " parameters ++ ofText "):" ++ result

/-- `name: T` -/
def field (name : String) (type : TypeExpr) : TypeExpr :=
  ofText (name ++ ": ") ++ type

end TypeExpr

/-- Where a type stands, which decides how it is marked as optional. -/
inductive Slot where
  /-- A field of an object: `(T|undefined)`. -/
  | field
  /-- A parameter inside of a function type: `T|undefined`. -/
  | callbackParameter
  /-- A parameter of a declared function: `T=`. -/
  | parameter
  /-- What a function gives back is never optional. -/
  | result
  deriving DecidableEq, Repr

def Slot.markOptional (slot : Slot) (expression : TypeExpr) : TypeExpr :=
  match slot with
  | .field => .ofText "(" ++ expression ++ .ofText "|undefined)"
  | .callbackParameter => expression ++ .ofText "|undefined"
  | .parameter => expression ++ .ofText "="
  | .result => expression

/-- Marks the expression if the type is optional. -/
def Slot.place (slot : Slot) (optional : Bool) (expression : TypeExpr) : TypeExpr :=
  if optional then slot.markOptional expression else expression

end Externs
