import Externs.Diagnostic

/-!
# Defects of a model

Why no declarations can be written for a namespace. A defect names the namespace
and the dotted path of the entity in it.
-/

set_option autoImplicit false

namespace Externs

inductive Defect where
  | emptyEnumeration (space : String) (entity : String)
  | emptyChoice (space : String) (entity : String)
  | emptyRecord (space : String) (entity : String)
  | emptyObject (space : String) (entity : String)
  | malformedReference (space : String) (entity : String) (reference : String)
  | repeatedName (space : String) (name : String)
  deriving DecidableEq, Repr

def Defect.diagnostic : Defect → Diagnostic
  | .emptyEnumeration space entity =>
      { message := "Enum `" ++ space ++ "." ++ entity ++ "` has no values"
        code := "model::empty_enum" }
  | .emptyChoice space entity =>
      { message := "Choice type at `" ++ space ++ "." ++ entity ++ "` has no alternatives"
        code := "model::empty_choice" }
  | .emptyRecord space entity =>
      { message := "Record `" ++ space ++ "." ++ entity ++ "` has no properties or methods"
        code := "model::empty_record"
        help := some "Declare a shapeless object as an alias of `object` instead." }
  | .emptyObject space entity =>
      { message := "Inline object at `" ++ space ++ "." ++ entity ++ "` has no properties"
        code := "model::empty_object" }
  | .malformedReference space entity reference =>
      { message :=
          "Malformed type reference `" ++ reference ++ "` at `" ++ space ++ "." ++ entity ++ "`"
        code := "model::malformed_reference" }
  | .repeatedName space name =>
      { message := "Namespace `" ++ space ++ "` declares `" ++ name ++ "` more than once"
        code := "model::duplicate_name"
        help := some "Types, functions and events share one namespace object." }

end Externs
