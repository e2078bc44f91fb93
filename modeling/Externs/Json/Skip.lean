import Externs.Json.Lexeme

/-!
# Passing over a value

The value of a member that nobody asks for is passed over. It has to be well
formed, but it may nest to any depth and hold numbers of any size.
-/

set_option autoImplicit false

namespace Externs.Json.Reader

/-- A bracket that is still open. -/
inductive Frame where
  | list
  | object
  deriving DecidableEq, Repr

namespace Frame

def closer : Frame → Char
  | .list => ']'
  | .object => '\x7d'

/-- The problem where the text ends inside of the bracket. -/
def atEnd : Frame → Problem
  | .list => .endInList
  | .object => .endInObject

/-- The problem where neither a comma nor the closing bracket follows. -/
def expectedComma : Frame → Problem
  | .list => .expectedListComma
  | .object => .expectedObjectComma

end Frame

/-- Reads the colon between a name and its value. -/
def colon : Reader Unit := do
  match ← token with
  | none => failNext .endInObject
  | some c => if c = ':' then advance else failNext .expectedColon

/-- Passes over what stands in front of a value: in an object its name and the colon. -/
def skipName : Frame → Reader Unit
  | .list => return ()
  | .object => do
      match ← token with
      | none => failNext .endInObject
      | some c =>
          if c = '"' then
            advance
            skipStringTail
            colon
          else failNext .keyNotString

/-- Goes on after a value, or right after an opening bracket if `comma` is false:
closes brackets, innermost first, until another value follows. -/
def settle (comma : Bool) : List Frame → Reader (ForInStep (List Frame))
  | [] => return .done []
  | frame :: outer => do
      match ← token with
      | none => failNext frame.atEnd
      | some c =>
          if comma && c == ',' then
            advance
            skipName frame
            return .yield (frame :: outer)
          else if c = frame.closer then
            advance
            settle true outer
          else if comma then failNext frame.expectedComma
          else
            skipName frame
            return .yield (frame :: outer)

/-- Passes over one value without parts or one opening bracket, and what follows it. -/
def skipPart (frames : List Frame) : Reader (ForInStep (List Frame)) := do
  match ← token with
  | none => failNext .endInValue
  | some c =>
      match passed.startingWith? c with
      | some value =>
          value
          settle true frames
      | none =>
          if c = '[' then
            advance
            settle false (.list :: frames)
          else if c = '\x7b' then
            advance
            settle false (.object :: frames)
          else failNext .expectedValue

def skipValue : Reader Unit := do
  let _ ← iterate skipPart []

end Externs.Json.Reader
