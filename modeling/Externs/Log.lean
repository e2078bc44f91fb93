import Externs.Pipeline

/-!
# The log of a run

What is recorded while a source text is compiled and its declarations are made,
up to the first failure.
-/

set_option autoImplicit false

namespace Externs

inductive LogRecord where
  | parsed (count : Nat) (fileName : String)
  | generating (space : Namespace)
  | emitting (entity : Entity)

namespace LogRecord

def level : LogRecord → String
  | .parsed _ _ => "DEBUG"
  | .generating _ => "DEBUG"
  | .emitting _ => "TRACE"

def text : LogRecord → String
  | .parsed count fileName =>
      "Parsed " ++ toString count ++ " namespace(s) from `" ++ fileName ++ "`"
  | .generating space =>
      "Generating externs for `" ++ space.name ++ "` (" ++ toString space.types.length ++
        " types, " ++ toString space.functions.length ++ " functions, " ++
        toString space.events.length ++ " events)"
  | .emitting entity =>
      let kind :=
        match entity with
        | .type _ => "type"
        | .function _ => "function"
        | .event _ => "event"
      "Emitting " ++ kind ++ " `" ++ entity.name ++ "`"

end LogRecord

/-- Entities are recorded up to the first one that has a defect. -/
def Site.log (site : Site) : List Entity → List LogRecord × Option Defect
  | [] => ([], none)
  | entity :: rest =>
      match site.entityBlock entity with
      | .error defect => ([.emitting entity], some defect)
      | .ok _ =>
          let (records, defect) := site.log rest
          (.emitting entity :: records, defect)

namespace Generator

/-- The log of one namespace. A repeated name shows before any entity. -/
def logSpace (generator : Generator) (space : Namespace) : List LogRecord × Option Defect :=
  match space.checkNames with
  | .error defect => ([.generating space], some defect)
  | .ok _ =>
      let (records, defect) := (generator.site space).log space.entities
      (.generating space :: records, defect)

def logSpaces (generator : Generator) : List Namespace → List LogRecord × Option Defect
  | [] => ([], none)
  | space :: rest =>
      match generator.logSpace space with
      | (records, some defect) => (records, some defect)
      | (records, none) =>
          let (later, defect) := generator.logSpaces rest
          (records ++ later, defect)

/-- The log of a run on a source text, and the failure that ended it. -/
def log (generator : Generator) (source fileName : String) : List LogRecord × Option Failure :=
  match compileSource source fileName with
  | .error failure => ([], some failure)
  | .ok compiled =>
      let (records, defect) := generator.logSpaces compiled.namespaces
      (.parsed compiled.namespaces.length fileName :: records, defect.map .model)

end Generator

end Externs
