import Externs.Compile
import Externs.Failure
import Externs.Generator

/-!
# From schemas to declaration files

The whole way: reading a schema file, compiling it, and writing the declarations
of its namespaces.
-/

set_option autoImplicit false

namespace Externs

structure DeclarationFile where
  space : String
  contents : String
  deriving DecidableEq, Repr

def Generator.file (generator : Generator) (space : Namespace) : Except Defect DeclarationFile :=
  return ⟨space.name, ← generator.generate space⟩

/-- The declaration files of all namespaces in their order, unless one has a defect. -/
def Compiled.files (generator : Generator) (compiled : Compiled) :
    Except Defect (List DeclarationFile) :=
  compiled.namespaces.mapM generator.file

/-- Compiles a source text, with failures of all kinds in view. -/
def compileSource (source fileName : String) : Except Failure Compiled :=
  (compile source fileName).mapError .schema

/-- Compiles a schema file. It is known by the last part of its path. -/
def compileFile (tree : FileTree) (path : String) : Except Failure Compiled := do
  let source ← (tree.read path).mapError (.file path)
  compileSource source (FileTree.fileName path)

/-- The declarations of the first namespace of a source text. The others have to
compile as well. -/
def declareFirst (generator : Generator) (source fileName : String) : Except Failure String := do
  let compiled ← compileSource source fileName
  match compiled.namespaces with
  | [] => throw (.schema (.noNamespaces fileName))
  | space :: _ => (generator.generate space).mapError .model

/-- The declarations of all namespaces of a source text. -/
def declareAll (generator : Generator) (source fileName : String) :
    Except Failure (List DeclarationFile) := do
  let compiled ← compileSource source fileName
  (compiled.files generator).mapError .model

end Externs
