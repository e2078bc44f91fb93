/-!
# Members of an enumeration

An enumeration becomes an object literal with one member for each value. The
member's key is an identifier made from the value, and the member itself is the
value as a single-quoted literal.
-/

set_option autoImplicit false

namespace Externs.Enumeration

/-! ## Keys -/

/-- Letters, digits and the underscore, all of them ASCII. -/
def isWordChar (c : Char) : Bool :=
  c.isAlphanum || c == '_'

/-- Puts an underscore between a lower-case letter and the upper-case letter right after it. -/
def separateWords : List Char → List Char
  | first :: second :: rest =>
      if first.isLower && second.isUpper then first :: '_' :: second :: separateWords rest
      else first :: separateWords (second :: rest)
  | text => text

/-- Puts an underscore in place of each character that an identifier cannot hold. -/
def maskOthers (text : List Char) : List Char :=
  text.map fun c => if isWordChar c then c else '_'

/-- Puts an underscore in front of a digit at the start. -/
def guardDigit : List Char → List Char
  | c :: rest => if c.isDigit then '_' :: c :: rest else c :: rest
  | [] => []

/-- The key of an enumeration value: `camelCaseEnum` has the key `CAMEL_CASE_ENUM`,
`Non-Characters` has `NON_CHARACTERS` and `5NumFirst` has `_5NUM_FIRST`. -/
def key (value : String) : String :=
  String.ofList ((guardDigit (maskOthers (separateWords value.toList))).map Char.toUpper)

/-! ## Literals -/

/-- Puts a backslash in front of each occurrence of `mark`. -/
def protect (mark : Char) (text : List Char) : List Char :=
  text.flatMap fun c => if c = mark then ['\\', c] else [c]

def literal (value : String) : String :=
  String.ofList (['\''] ++ protect '\'' (protect '\\' value.toList) ++ ['\''])

end Externs.Enumeration
