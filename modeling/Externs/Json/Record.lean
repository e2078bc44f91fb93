import Externs.Json.Typed

/-!
# Records

Readers for values with a fixed set of fields. A record is written as an object,
in any order of its fields, or as a list that has them in their order.
-/

set_option autoImplicit false

namespace Externs.Json.Reader

variable {κ σ : Type}

/-- The fields of a record type with values in `σ`. -/
structure Fields (κ σ : Type) where
  /-- The name of the record type. -/
  label : String
  /-- All fields, in their order. -/
  fields : List κ
  /-- The name of a field. -/
  key : κ → String
  /-- Whether a list that ends before the field leaves it at its default. -/
  defaulted : κ → Bool
  /-- The record with no field read. -/
  initial : σ

namespace Fields

def find? (fields : Fields κ σ) (name : String) : Option κ :=
  fields.fields.find? fun field => fields.key field == name

/-- Reads one member of a record. What is read so far is the record and, in front,
the names of all members. A field may be given only once; a name that is not a
field is passed over with its value. -/
def member (fields : Fields κ σ) (read : κ → Reader (σ → σ)) (state : σ × List String) :
    Reader (ForInStep (σ × List String)) := do
  let (record, names) := state
  match ← nextName names.isEmpty with
  | none => return .done (record, names)
  | some name =>
      match fields.find? name with
      | none =>
          colon
          skipValue
          return .yield (record, name :: names)
      | some field =>
          if names.contains name then refuse (.repeatedField name)
          else
            colon
            let update ← read field
            return .yield (update record, name :: names)

/-- Reads the fields of a record from a list, in their order. -/
def positional (fields : Fields κ σ) (read : κ → Reader (σ → σ)) :
    (ahead : List κ) → (index : Nat) → (record : σ) → Reader σ
  | [], _, record => return record
  | field :: ahead, index, record => do
      if ← nextItem (index == 0) then
        let update ← read field
        positional fields read ahead (index + 1) (update record)
      else if fields.defaulted field then positional fields read ahead (index + 1) record
      else
        let expected :=
          "struct " ++ fields.label ++ " with " ++ toString fields.fields.length ++ " elements"
        refuse (.wrongLength index expected)

/-- A record, written as an object or as the list of its fields. -/
def record (fields : Fields κ σ) (read : Option (κ → Reader (σ → σ))) : Reader σ :=
  starting fun c =>
    if c = '\x7b' then
      enter closeObject (read.map fun read => do
        return (← iterate (fields.member read) (fields.initial, [])).1)
    else if c = '[' then
      enter closeList (read.map fun read =>
        fields.positional read fields.fields 0 fields.initial)
    else mismatch c ("struct " ++ fields.label)

end Fields

end Externs.Json.Reader
