import Externs.Json.Skip

/-!
# Typed readers

Readers for values of a known form. A reader that finds a value of another form
reads what it found, as far as that has no parts, and reports it.

Brackets may nest only so far. A reader for something in brackets is given the
reader for what stands inside, or none where no further bracket may be entered.
-/

set_option autoImplicit false

namespace Externs.Json.Reader

variable {α : Type}

/-- The number of brackets that may be open at the same time. -/
def greatestDepth : Nat := 127

/-! ## Forms that do not fit -/

/-- Reports a value that starts with `c` where something else was expected. -/
def mismatch (c : Char) (expected : String) : Reader α :=
  match kept.startingWith? c with
  | some read => do
      let value ← read
      failHere (.wrongType (.scalar value) expected)
  | none =>
      if c = '[' then failHere (.wrongType .list expected)
      else if c = '\x7b' then failHere (.wrongType .object expected)
      else failNext .expectedValue

/-- Starts a value: skips blanks and hands on its first character. -/
def starting (read : Char → Reader α) : Reader α := do
  match ← token with
  | none => failNext .endInValue
  | some c => read c

/-! ## Values without parts -/

def string : Reader String :=
  starting fun c =>
    if c = '"' then do
      advance
      stringTail
    else mismatch c "a string"

def size : Reader Nat :=
  starting fun c =>
    if startsNumber c then do
      match ← number with
      | .integer (.ofNat value) => return value
      | .integer value => failHere (.wrongValue (.scalar (.number (.integer value))) "usize")
      | value => failHere (.wrongType (.scalar (.number value)) "usize")
    else mismatch c "usize"

/-- A value or `null`. -/
def optional (value : Reader α) : Reader (Option α) := do
  match ← token with
  | some 'n' =>
      advance
      word ['u', 'l', 'l']
      return none
  | _ => return some (← value)

/-! ## Brackets -/

/-- Takes an opening bracket and reads what stands inside, unless it is too deep. -/
def enter (close : Reader Unit) : Option (Reader α) → Reader α
  | none => failNext .tooDeep
  | some contents => do
      advance
      enclosed close contents

/-- Whether another item of a list follows. A comma has to stand between two items. -/
def nextItem (first : Bool) : Reader Bool := do
  match ← token with
  | none => failNext .endInList
  | some c =>
      if c = ']' then return false
      else if first then return true
      else if c = ',' then
        advance
        match ← token with
        | none => failNext .endInValue
        | some c => if c = ']' then failNext .trailingComma else return true
      else failNext .expectedListComma

def closeList : Reader Unit := do
  match ← token with
  | none => failNext .endInList
  | some c =>
      if c = ']' then advance
      else if c = ',' then
        advance
        match ← token with
        | some ']' => failNext .trailingComma
        | _ => failNext .trailingText
      else failNext .trailingText

def items (item : Reader α) : Reader (List α) := do
  let reversed ← iterate (fun (read : List α) => do
    if ← nextItem read.isEmpty then return .yield ((← item) :: read)
    else return .done read) []
  return reversed.reverse

/-- The quote of a name has to follow. -/
def name : Reader String := do
  match ← peek with
  | some '"' =>
      advance
      stringTail
  | _ => failNext .keyNotString

/-- The name of the next member of an object, if there is one. A comma has to
stand between two members. -/
def nextName (first : Bool) : Reader (Option String) := do
  match ← token with
  | none => failNext .endInObject
  | some c =>
      if c = '\x7d' then return none
      else if first then return some (← name)
      else if c = ',' then
        advance
        match ← token with
        | none => failNext .endInValue
        | some c => if c = '\x7d' then failNext .trailingComma else return some (← name)
      else failNext .expectedObjectComma

def closeObject : Reader Unit := do
  match ← token with
  | none => failNext .endInObject
  | some c =>
      if c = '\x7d' then advance
      else if c = ',' then failNext .trailingComma
      else failNext .trailingText

/-- The members of an object, repeated names and all. -/
def members (value : Reader α) : Reader (List (String × α)) := do
  let reversed ← iterate (fun (read : List (String × α)) => do
    match ← nextName read.isEmpty with
    | none => return .done read
    | some name =>
        colon
        return .yield ((name, ← value) :: read)) []
  return reversed.reverse

def list (item : Option (Reader α)) : Reader (List α) :=
  starting fun c =>
    if c = '[' then enter closeList (item.map items)
    else mismatch c "a sequence"

/-- An object whose names are not fixed. -/
def object (expected : String) (value : Option (Reader α)) : Reader (List (String × α)) :=
  starting fun c =>
    if c = '\x7b' then enter closeObject (value.map members)
    else mismatch c expected

/-- Any value, with at most `depth` brackets open at the same time. -/
def value (depth : Nat) : Reader Json :=
  starting fun c =>
    let inside : Option (Reader Json) :=
      match depth with
      | 0 => none
      | depth + 1 => some (value depth)
    match kept.startingWith? c with
    | some read => return .scalar (← read)
    | none =>
        if c = '[' then return .list (← enter closeList (inside.map items))
        else if c = '\x7b' then return .object (← enter closeObject (inside.map members))
        else failNext .expectedValue

end Externs.Json.Reader
