import Externs.Comment
import Externs.Schema.Document
import Externs.Schema.Lowering
import Externs.Text.Blank

/-!
# Compiling schemas

From the source text of a schema to the namespaces that it declares.
-/

set_option autoImplicit false

namespace Externs

structure Compiled where
  fileName : String
  namespaces : List Namespace

def Compiled.namespace? (compiled : Compiled) (name : String) : Option Namespace :=
  compiled.namespaces.find? fun space => space.name == name

/-- Compiles a source text. Problems with its form are found in the text without
comments, and reported at their place in the source. -/
def compile (source fileName : String) : Except Schema.Rejection Compiled := do
  let text ←
    match Comment.blank source with
    | .ok text => pure text.toList
    | .error offset => throw (.unclosedComment offset)
  if (Text.trimStart text).head? ≠ some '[' then throw (.notAList fileName)
  let document ←
    match Schema.readDocument text with
    | .ok document => pure document
    | .error complaint =>
        throw (.unreadable complaint (complaint.position.toOffset source.toList))
  if document.isEmpty then throw (.noNamespaces fileName)
  let namespaces ← document.mapM (Schema.NamespaceNode.lower fileName)
  return { fileName, namespaces }

/-! ## How a source text is compiled -/

theorem compile_of_unclosed {source : String} {opener : Nat}
    (unclosed : Comment.blank source = .error opener) (fileName : String) :
    compile source fileName = .error (.unclosedComment opener) := by
  simp only [compile, unclosed]
  rfl

/-- Of the source itself only the places of its problems are left to see, once its
comments are blanked. -/
theorem compile_of_blank {source text : String} (blanked : Comment.blank source = .ok text)
    (fileName : String) :
    compile source fileName =
      if (Text.trimStart text.toList).head? ≠ some '[' then .error (.notAList fileName)
      else
        match Schema.readDocument text.toList with
        | .error complaint =>
            .error (.unreadable complaint (complaint.position.toOffset source.toList))
        | .ok document =>
            if document.isEmpty then .error (.noNamespaces fileName)
            else Compiled.mk fileName <$> document.mapM (Schema.NamespaceNode.lower fileName) := by
  simp only [compile, blanked, pure_bind]
  split
  · rfl
  · cases Schema.readDocument text.toList with
    | error complaint => rfl
    | ok document => cases document <;> rfl

/-- How compiling a source can end. -/
inductive Compiles (source fileName : String) : Except Schema.Rejection Compiled → Prop
  | unclosed {opener : Nat} (unclosed : Comment.blank source = .error opener) :
      Compiles source fileName (.error (.unclosedComment opener))
  | notAList {text : String} (blanked : Comment.blank source = .ok text)
      (start : (Text.trimStart text.toList).head? ≠ some '[') :
      Compiles source fileName (.error (.notAList fileName))
  | unreadable {text : String} {complaint : Json.Complaint}
      (blanked : Comment.blank source = .ok text)
      (read : Schema.readDocument text.toList = .error complaint) :
      Compiles source fileName
        (.error (.unreadable complaint (complaint.position.toOffset source.toList)))
  | noNamespaces {text : String} (blanked : Comment.blank source = .ok text)
      (read : Schema.readDocument text.toList = .ok []) :
      Compiles source fileName (.error (.noNamespaces fileName))
  | lowered {text : String} {document : List Schema.NamespaceNode}
      (blanked : Comment.blank source = .ok text)
      (read : Schema.readDocument text.toList = .ok document) (filled : document ≠ []) :
      Compiles source fileName
        (Compiled.mk fileName <$> document.mapM (Schema.NamespaceNode.lower fileName))

theorem compiles (source fileName : String) :
    Compiles source fileName (compile source fileName) := by
  cases blanked : Comment.blank source with
  | error opener =>
      rw [compile_of_unclosed blanked]
      exact .unclosed blanked
  | ok text =>
      rw [compile_of_blank blanked]
      split
      · next start => exact .notAList blanked start
      · cases read : Schema.readDocument text.toList with
        | error complaint => exact .unreadable blanked read
        | ok document =>
            cases document with
            | nil => exact .noNamespaces blanked read
            | cons first rest => exact .lowered blanked read (List.cons_ne_nil first rest)

end Externs
