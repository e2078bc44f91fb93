import Externs.Json.Basic
import Externs.Text.Quoted

/-!
# Problems with a JSON text

Why a JSON text cannot be read as what it should be, and the wording of each
cause.
-/

set_option autoImplicit false

namespace Externs.Json

/-- What stands where something else was expected. Of a list or an object only
its opening bracket has been seen. -/
inductive Found where
  | scalar (value : Scalar)
  | list
  | object
  deriving DecidableEq, Repr

def Found.text : Found → String
  | .scalar .null => "null"
  | .scalar (.boolean true) => "boolean `true`"
  | .scalar (.boolean false) => "boolean `false`"
  | .scalar (.number (.integer value)) => "integer `" ++ (Number.integer value).text ++ "`"
  | .scalar (.number (.real negative magnitude)) =>
      "floating point `" ++ (Number.real negative magnitude).text ++ "`"
  | .scalar (.string value) => "string " ++ Text.quoted value
  | .list => "sequence"
  | .object => "map"

/-- Why a text cannot be read. The last five are about what a text says, all
others about how it is written. -/
inductive Problem where
  | endInValue
  | endInString
  | endInList
  | endInObject
  | expectedColon
  | expectedListComma
  | expectedObjectComma
  | expectedWord
  | expectedValue
  | invalidEscape
  | invalidNumber
  | numberOutOfRange
  | loneSurrogate
  | unfinishedPair
  | controlCharacter
  | keyNotString
  | trailingComma
  | trailingText
  | tooDeep
  | wrongType (found : Found) (expected : String)
  | wrongValue (found : Found) (expected : String)
  | wrongLength (length : Nat) (expected : String)
  | repeatedField (name : String)
  | noVariant (union : String)
  deriving DecidableEq, Repr

def Problem.text : Problem → String
  | .endInValue => "EOF while parsing a value"
  | .endInString => "EOF while parsing a string"
  | .endInList => "EOF while parsing a list"
  | .endInObject => "EOF while parsing an object"
  | .expectedColon => "expected `:`"
  | .expectedListComma => "expected `,` or `]`"
  | .expectedObjectComma => "expected `,` or `\x7d`"
  | .expectedWord => "expected ident"
  | .expectedValue => "expected value"
  | .invalidEscape => "invalid escape"
  | .invalidNumber => "invalid number"
  | .numberOutOfRange => "number out of range"
  | .loneSurrogate => "lone leading surrogate in hex escape"
  | .unfinishedPair => "unexpected end of hex escape"
  | .controlCharacter => "control character (\\u0000-\\u001F) found while parsing a string"
  | .keyNotString => "key must be a string"
  | .trailingComma => "trailing comma"
  | .trailingText => "trailing characters"
  | .tooDeep => "recursion limit exceeded"
  | .wrongType found expected => "invalid type: " ++ found.text ++ ", expected " ++ expected
  | .wrongValue found expected => "invalid value: " ++ found.text ++ ", expected " ++ expected
  | .wrongLength length expected =>
      "invalid length " ++ toString length ++ ", expected " ++ expected
  | .repeatedField name => "duplicate field `" ++ name ++ "`"
  | .noVariant union => "data did not match any variant of untagged enum " ++ union

end Externs.Json
