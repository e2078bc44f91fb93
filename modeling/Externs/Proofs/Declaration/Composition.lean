import Externs.Proofs.Layout.Frame
import Externs.Proofs.Outcome

/-!
# Files are made of the blocks of their entities

What is written for an entity depends on no other entity: a declaration file is its
header and then, one after the other, the lines that each entity has on its own. The
blank lines that are taken away at the end were put between blocks, so a file ends with
its last statement.
-/

set_option autoImplicit false

namespace Externs

open Layout (Listing)

/-! ## Lines of a single entity -/

/-- A namespace of which only the name is known. -/
def Namespace.ofName (name : String) : Namespace where
  name
  description := none
  sourceFile := ""
  types := []
  functions := []
  events := []

/-- What an entity adds to an empty listing. -/
def Site.ownLines (site : Site) (width : Nat) (entity : Entity) :
    Except Defect (List String) := do
  let block ← site.entityBlock entity
  return (block.write (Listing.ofWidth width)).lines

theorem Block.lines_write_ofWidth (width : Nat) (block : Block) :
    (block.write (Listing.ofWidth width)).lines = block.lines {} width :=
  block.writes.lines (Listing.ofWidth width)

/-! ## Lines that end with a statement -/

def IsClosing (line : String) : Prop :=
  [';'] <:+ line.toList

theorem IsClosing.after {ending : String} (closing : IsClosing ending) (text : String) :
    IsClosing (text ++ ending) := by
  rw [IsClosing, String.toList_append]
  exact closing.trans (List.suffix_append _ _)

theorem IsClosing.allBlank_eq_false {line : String} (closing : IsClosing line) :
    Text.allBlank line = false := by
  obtain ⟨text, made⟩ := closing
  rw [Text.allBlank, ← made, List.all_append]
  exact Bool.and_false _

/-- The last line that is not empty ends with a semicolon. -/
def Closed (lines : List String) : Prop :=
  ∃ before last count, IsClosing last ∧ lines = before ++ [last] ++ List.replicate count ""

namespace Closed

variable {lines : List String}

theorem after (closed : Closed lines) (earlier : List String) : Closed (earlier ++ lines) := by
  obtain ⟨before, last, count, closing, rfl⟩ := closed
  exact ⟨earlier ++ before, last, count, closing, by simp⟩

theorem blank (closed : Closed lines) : Closed (lines ++ [""]) := by
  obtain ⟨before, last, count, closing, rfl⟩ := closed
  exact ⟨before, last, count + 1, closing, by simp [List.replicate_succ']⟩

theorem blocks {α : Type} {own : α → List String} {parts : List α} (closed : Closed lines)
    (each : ∀ part ∈ parts, Closed (own part)) :
    Closed (lines ++ parts.flatMap fun part => own part ++ [""]) := by
  induction parts generalizing lines with
  | nil => simpa using closed
  | cons part rest ih =>
      obtain ⟨first, others⟩ := List.forall_mem_cons.mp each
      have whole := ih (first.blank.after lines) others
      rwa [List.flatMap_cons, ← List.append_assoc]

/-- Only empty lines are taken away at the end, and the last statement stays. -/
theorem trimmed (closed : Closed lines) :
    ∃ before last count, IsClosing last ∧
      lines.rdropWhile Text.allBlank = before ++ [last] ∧
      lines = lines.rdropWhile Text.allBlank ++ List.replicate count "" := by
  obtain ⟨before, last, count, closing, rfl⟩ := closed
  have kept :
      (before ++ [last] ++ List.replicate count "").rdropWhile Text.allBlank =
        before ++ [last] := by
    induction count with
    | zero =>
        have shown : ¬Text.allBlank last = true := by simp [closing.allBlank_eq_false]
        simp [List.rdropWhile_concat_neg _ _ _ shown]
    | succ count ih =>
        rw [List.replicate_succ', ← List.append_assoc, List.rdropWhile_concat_pos _ _ _ rfl, ih]
  exact ⟨before, last, count, closing, kept, by rw [kept]⟩

end Closed

/-! ## Declarations end with a statement -/

def Declaration.IsClosed (declaration : Declaration) : Prop :=
  ∃ last ∈ declaration.statement.getLast?, IsClosing last

theorem Declaration.IsClosed.lines {declaration : Declaration} (closed : declaration.IsClosed)
    (width : Nat) : Closed (declaration.lines {} width) := by
  obtain ⟨last, ends, closing⟩ := closed
  obtain ⟨before, made⟩ := List.getLast?_eq_some_iff.mp ends
  rw [Declaration.lines_empty, made]
  have closed : Closed (before ++ [last]) := ⟨before, last, 0, closing, by simp⟩
  exact closed.after _

/-- All declarations of a block are closed, and there is at least one. -/
def Block.IsClosed : Block → Prop
  | .single declaration => declaration.IsClosed
  | .cluster declarations =>
      declarations ≠ [] ∧ ∀ declaration ∈ declarations, declaration.IsClosed

theorem Block.IsClosed.lines {block : Block} (closed : block.IsClosed) (width : Nat) :
    Closed (block.lines {} width) := by
  cases block with
  | single declaration => exact Declaration.IsClosed.lines closed width
  | cluster declarations =>
      obtain ⟨filled, each⟩ := closed
      cases declarations with
      | nil => exact absurd rfl filled
      | cons first rest =>
          obtain ⟨head, others⟩ := List.forall_mem_cons.mp each
          exact (head.lines width).blank.blocks fun declaration member =>
            (others declaration member).lines width

namespace Site

variable (site : Site)

theorem isClosed_of_statement {doc : List DocItem} {line ending : String}
    (closing : [';'] <:+ ending.toList) : Declaration.IsClosed ⟨doc, [line ++ ending]⟩ :=
  ⟨line ++ ending, rfl, IsClosing.after closing line⟩

theorem isClosed_functionDeclaration (target entity : String) (function : Function) :
    Ensures (site.functionDeclaration target entity function) Declaration.IsClosed := by
  intro declaration success
  obtain ⟨parameters, -, success⟩ := Outcome.bind_eq_ok success
  obtain ⟨returns, -, success⟩ := Outcome.bind_eq_ok success
  cases success
  exact isClosed_of_statement (by decide)

theorem isClosed_propertyDeclaration (type : TypeDefinition) (property : Property) :
    Ensures (site.propertyDeclaration type property) Declaration.IsClosed := by
  unfold propertyDeclaration
  cases property.jsexterns with
  | some literal => exact Ensures.pure (isClosed_of_statement (by decide))
  | none =>
      intro declaration success
      obtain ⟨expression, -, success⟩ := Outcome.bind_eq_ok success
      cases success
      exact isClosed_of_statement (by decide)

theorem isClosed_enumerationDeclaration (type : TypeDefinition) (values : List EnumValue) :
    Ensures (site.enumerationDeclaration type values) Declaration.IsClosed := by
  unfold enumerationDeclaration
  split
  · exact Ensures.throw _ _
  · have closing : [';'] <:+ "\x7d;".toList := by decide
    exact Ensures.pure ⟨"\x7d;", List.getLast?_concat, closing⟩

theorem isClosed_typedef (type : TypeDefinition) (outcome : Except Defect TypeExpr) :
    Ensures (do return .single (site.typedefDeclaration type (← outcome))) Block.IsClosed := by
  intro block success
  obtain ⟨expression, -, success⟩ := Outcome.bind_eq_ok success
  cases success
  exact isClosed_of_statement (by decide)

theorem isClosed_typeBlock (type : TypeDefinition) :
    Ensures (site.typeBlock type) Block.IsClosed := by
  unfold typeBlock
  cases type.definition with
  | enumeration values =>
      exact (site.isClosed_enumerationDeclaration type values).map fun _ closed => closed
  | record properties functions =>
      dsimp only
      split
      · split
        · exact Ensures.throw _ _
        · exact site.isClosed_typedef type _
      · have members := Ensures.mapM_forall fun property (_ : property ∈ properties) =>
          site.isClosed_propertyDeclaration type property
        have methods := Ensures.mapM_forall fun method (_ : method ∈ functions) =>
          site.isClosed_functionDeclaration
            (site.scope.qualify type.name ++ ".prototype." ++ method.name)
            (type.name ++ "." ++ method.name) method
        refine members.bind fun first closedFirst => ?_
        refine methods.bind fun second closedSecond => ?_
        have constructed : (site.constructorDeclaration type).IsClosed :=
          isClosed_of_statement (by decide)
        exact Ensures.pure ⟨List.cons_ne_nil _ _, List.forall_mem_cons.mpr
          ⟨constructed, List.forall_mem_append.mpr ⟨closedFirst, closedSecond⟩⟩⟩
  | choice choices => exact site.isClosed_typedef type _
  | «alias» target => exact site.isClosed_typedef type _

theorem isClosed_entityBlock (entity : Entity) :
    Ensures (site.entityBlock entity) Block.IsClosed := by
  cases entity with
  | type declared => exact site.isClosed_typeBlock declared
  | function declared =>
      exact (site.isClosed_functionDeclaration _ _ declared).map fun _ closed => closed
  | event declared => exact Ensures.pure (isClosed_of_statement (by decide))

end Site

/-! ## Files -/

theorem suffix_intercalate_concat (separator : String) (before : List String) (last : String) :
    last.toList <:+ (separator.intercalate (before ++ [last])).toList := by
  induction before with
  | nil => simp
  | cons line rest ih =>
      rw [List.cons_append, String.intercalate_cons_of_ne_nil (by simp), String.toList_append]
      exact ih.trans (List.suffix_append _ _)

theorem IsClosing.suffix_text {listing : Listing} {before : List String} {last : String}
    (closing : IsClosing last) (ends : listing.lines = before ++ [last]) :
    [';', '\n'] <:+ (listing.text ++ "\n").toList := by
  obtain ⟨start, split⟩ := closing.trans (suffix_intercalate_concat "\n" before last)
  refine ⟨start, ?_⟩
  rw [Layout.Listing.text, ends, String.toList_append, ← split]
  simp

namespace Generator

variable {generator : Generator} {space : Namespace}

/-- What a file is made of: its header and its blocks, without the blank lines at the
end. -/
theorem exists_blocks_of_listing {listing : Listing}
    (success : generator.listing space = .ok listing) :
    ∃ blocks, space.entities.mapM (generator.site space).entityBlock = .ok blocks ∧
      listing.lines =
        (generator.headerLines space ++
          blocks.flatMap fun block =>
            block.lines {} generator.conventions.commentWidth ++ [""]).rdropWhile
          Text.allBlank := by
  obtain ⟨_, -, success⟩ := Outcome.bind_eq_ok success
  obtain ⟨blocks, found, success⟩ := Outcome.bind_eq_ok success
  cases success
  refine ⟨blocks, found, ?_⟩
  rw [Layout.Listing.lines_trimEnd, lines_writeBlocks_ofWidth]

theorem headerLines_ofName (generator : Generator) (space : Namespace) :
    generator.headerLines (.ofName space.name) = generator.headerLines space :=
  rfl

theorem closed_headerLines (generator : Generator) (space : Namespace) :
    Closed (generator.headerLines space) := by
  have closing : [';'] <:+ " = \x7b\x7d;".toList := by decide
  exact ⟨(generator.headerLines space).take 16, _, 1,
    IsClosing.after closing (generator.site space).scope.path, rfl⟩

theorem closed_blocks {blocks : List Block}
    (found : space.entities.mapM (generator.site space).entityBlock = .ok blocks) (width : Nat) :
    Closed (generator.headerLines space ++
      blocks.flatMap fun block => block.lines {} width ++ [""]) := by
  apply (closed_headerLines generator space).blocks
  intro block member
  obtain ⟨entity, -, made⟩ := Outcome.exists_of_mem_mapM found block member
  exact ((generator.site space).isClosed_entityBlock entity block made).lines width

theorem lines_ne_nil_of_listing {listing : Listing}
    (success : generator.listing space = .ok listing) : listing.lines ≠ [] := by
  obtain ⟨blocks, found, lines⟩ := exists_blocks_of_listing success
  obtain ⟨before, last, -, -, ends, -⟩ :=
    (closed_blocks found generator.conventions.commentWidth).trimmed
  rw [lines, ends]
  simp

/-- The lines of a file are those of its header, which knows of the name of the namespace
only, and those that each entity has on its own, with an empty line after each. What is
taken away at the end are such empty lines. -/
theorem lines_listing {listing : Listing} (success : generator.listing space = .ok listing) :
    (∃ (blocks : List (List String)) (separators : Nat),
      (space.types.map Entity.type ++ space.functions.map Entity.function ++
          space.events.map Entity.event).mapM
        ((generator.site (.ofName space.name)).ownLines generator.conventions.commentWidth) =
          .ok blocks ∧
        listing.lines =
          (generator.headerLines (.ofName space.name) ++
            blocks.flatMap fun block => block ++ [""]).rdropWhile Text.allBlank ∧
        listing.lines ++ List.replicate separators "" =
          generator.headerLines (.ofName space.name) ++
            blocks.flatMap fun block => block ++ [""]) ∧
      (∃ last, listing.lines.getLast? = some last ∧ Text.allBlank last = false) ∧
      ∃ text, generator.generate space = .ok text ∧ [';', '\n'] <:+ text.toList := by
  obtain ⟨blocks, found, lines⟩ := exists_blocks_of_listing success
  have own := Outcome.mapM_bind_pure_eq_ok
    (fun block : Block => (block.write (Listing.ofWidth generator.conventions.commentWidth)).lines)
    found
  have closed := closed_blocks found generator.conventions.commentWidth
  obtain ⟨before, last, separators, closing, ends, whole⟩ := closed.trimmed
  rw [← lines] at ends whole
  refine ⟨⟨_, separators, own, ?_, ?_⟩, ⟨last, ?_, closing.allBlank_eq_false⟩, ?_⟩
  · simp only [List.flatMap_map, Block.lines_write_ofWidth, headerLines_ofName]
    exact lines
  · simp only [List.flatMap_map, Block.lines_write_ofWidth, headerLines_ofName]
    exact whole.symm
  · rw [ends]
    exact List.getLast?_concat
  · exact ⟨listing.text ++ "\n", by rw [generate, success]; rfl, closing.suffix_text ends⟩

/-- A namespace that ends with the method of a type, after which two empty lines are
taken away. -/
def methodSpace : Namespace :=
  { Namespace.ofName "tabs" with
    types := [⟨"Tab", none, none, .record [] [⟨"close", [], none, some "Closes it.", none⟩]⟩] }

/-- A generator without room for prose. -/
def crampedGenerator : Generator :=
  ⟨{ commentWidth := 0 }, ⟨2015, "compiler.py"⟩⟩

/-- What the type of this namespace has on its own, with an empty line after its method. -/
def methodLines : List String :=
  ["/**", " * @constructor", " * @private",
    " * @see https://developer.chrome.com/extensions/tabs#type-Tab", " */",
    "chrome.tabs.Tab = function() \x7b\x7d;", "",
    "/**", "", " * C", " * l", " * o", " * s", " * e", " * s", " * i", " * t", " * .",
    " * @see https://developer.chrome.com/extensions/tabs#method-close", " */",
    "chrome.tabs.Tab.prototype.close = function() \x7b\x7d;", ""]

theorem lines_listing_methodSpace :
    ∃ listing, crampedGenerator.listing methodSpace = .ok listing ∧
      listing.lines ++ ["", ""] =
        crampedGenerator.headerLines (.ofName "tabs") ++ (methodLines ++ [""]) ∧
      listing.lines.getLast? = some "chrome.tabs.Tab.prototype.close = function() \x7b\x7d;" ∧
      ∃ text, crampedGenerator.generate methodSpace = .ok text ∧ [';', '\n'] <:+ text.toList := by
  obtain ⟨listing, success⟩ : ∃ listing, crampedGenerator.listing methodSpace = .ok listing :=
    ⟨_, rfl⟩
  obtain ⟨⟨blocks, separators, own, trimmed, -⟩, -, closing⟩ := lines_listing success
  have single : blocks = [methodLines] := by
    refine Except.ok.inj (own.symm.trans ?_)
    decide +kernel
  rw [single] at trimmed
  refine ⟨listing, success, ?_, ?_, closing⟩
  · rw [trimmed]
    decide +kernel
  · rw [trimmed]
    decide +kernel

end Generator

end Externs
