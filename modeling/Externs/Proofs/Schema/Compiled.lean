import Externs.Compile
import Externs.Proofs.Schema.Spelling

/-!
# Compiling well-written documents

A source text that writes a document compiles to what the document stands for. It can
only be rejected for what the document says, and never for how it is written.
-/

set_option autoImplicit false

namespace Externs.Schema

/-! ## Rejections of what a document says -/

def Rejection.OfContent : Rejection → Prop
  | .missingField _ _ | .unknownType _ _ | .enumerationType _ _ => True
  | _ => False

/-- The outcome is rejected for the content of the document, if it is rejected. -/
def Understood {α : Type} (outcome : Except Rejection α) : Prop :=
  ∀ rejection, outcome = .error rejection → rejection.OfContent

namespace Understood

variable {α β : Type}

theorem pure (value : α) : Understood (Pure.pure value : Except Rejection α) := by
  intro rejection same
  exact nomatch same

theorem throw {rejection : Rejection} (content : rejection.OfContent) :
    Understood (MonadExcept.throw rejection : Except Rejection α) := by
  intro other same
  rwa [← Except.error.inj same]

theorem bind {outcome : Except Rejection α} {next : α → Except Rejection β}
    (first : Understood outcome) (second : ∀ value, Understood (next value)) :
    Understood (outcome >>= next) := by
  cases outcome with
  | error rejection => exact throw (first rejection rfl)
  | ok value => exact second value

theorem map {outcome : Except Rejection α} (understood : Understood outcome) (f : α → β) :
    Understood (f <$> outcome) := by
  cases outcome with
  | error rejection => exact throw (understood rejection rfl)
  | ok value => exact pure (f value)

theorem mapM {outcome : α → Except Rejection β} (understood : ∀ input, Understood (outcome input))
    (inputs : List α) : Understood (inputs.mapM outcome) := by
  induction inputs with
  | nil => exact pure []
  | cons input rest ih =>
      rw [List.mapM_cons]
      exact (understood input).bind fun value => ih.bind fun values => pure (value :: values)

end Understood

theorem understood_required (path : String) (field : RequiredField) (value : Option String) :
    Understood (required path field value) := by
  cases value with
  | none => exact .throw trivial
  | some value => exact .pure value

mutual

theorem Node.understood_typeUse (path : String) (node : Node) : Understood (node.typeUse path) := by
  obtain ⟨facts, properties, items, choices, parameters, returns, functions⟩ := node
  have last (kind : TypeKind) :
      Understood (pure ⟨kind, facts.nullable⟩ : Except Rejection TypeUse) :=
    .pure _
  rw [Node.typeUse.eq_def]
  dsimp only
  split
  · exact last _
  · split
    · exact ((understood_typeUses path _).map _).bind last
    · split
      · exact last _
      · exact ((understood_itemOf path items).map _).bind last
      · refine (understood_returnOf _ returns).bind fun returns => ?_
        exact (understood_parametersOf _ parameters).bind fun parameters => last _
      · exact ((understood_fieldsOf path properties).map _).bind last
      · exact .throw trivial
      · exact .throw trivial

theorem understood_itemOf (path : String) (items : Option Node) :
    Understood (itemOf path items) := by
  match items with
  | none =>
      rw [itemOf]
      exact .throw trivial
  | some item =>
      rw [itemOf]
      exact item.understood_typeUse _

theorem understood_typeUses (path : String) (nodes : List Node) :
    Understood (typeUses path nodes) := by
  match nodes with
  | [] =>
      rw [typeUses]
      exact .pure []
  | node :: rest =>
      rw [typeUses]
      refine (node.understood_typeUse path).bind fun type => ?_
      exact (understood_typeUses path rest).bind fun types => .pure (type :: types)

theorem understood_fieldsOf (path : String) (properties : Option (List (String × Node))) :
    Understood (fieldsOf path properties) := by
  match properties with
  | none =>
      rw [fieldsOf]
      exact .pure []
  | some properties =>
      rw [fieldsOf]
      exact understood_namedFields path properties

theorem understood_namedFields (path : String) (properties : List (String × Node)) :
    Understood (namedFields path properties) := by
  match properties with
  | [] =>
      rw [namedFields]
      exact .pure []
  | (name, node) :: rest =>
      rw [namedFields]
      refine (node.understood_typeUse (part path name)).bind fun type => ?_
      exact (understood_namedFields path rest).bind fun fields => .pure _

theorem understood_parametersOf (path : String) (parameters : Option (List Node)) :
    Understood (parametersOf path parameters) := by
  match parameters with
  | none =>
      rw [parametersOf]
      exact .pure []
  | some parameters =>
      rw [parametersOf]
      exact understood_namedParameters path parameters

theorem understood_namedParameters (path : String) (nodes : List Node) :
    Understood (namedParameters path nodes) := by
  match nodes with
  | [] =>
      rw [namedParameters]
      exact .pure []
  | node :: rest =>
      rw [namedParameters]
      refine (understood_required _ .name node.facts.name).bind fun name => ?_
      refine (node.understood_typeUse (part path name)).bind fun type => ?_
      exact (understood_namedParameters path rest).bind fun parameters => .pure _

theorem understood_returnOf (path : String) (returns : Option Node) :
    Understood (returnOf path returns) := by
  match returns with
  | none =>
      rw [returnOf]
      exact .pure none
  | some node =>
      rw [returnOf]
      exact (node.understood_typeUse _).bind fun type => .pure _

end

theorem Node.understood_namedFunction (path : String) (node : Node) :
    Understood (node.namedFunction path) := by
  refine (understood_required _ .name node.facts.name).bind fun name => ?_
  refine (understood_returnOf _ node.returns).bind fun returns => ?_
  exact (understood_parametersOf _ node.parameters).bind fun parameters => .pure _

theorem Node.understood_definition (path : String) (node : Node) :
    Understood (node.definition path) := by
  rw [Node.definition]
  split
  · split
    · split
      · exact .pure _
      · exact .throw trivial
    · exact .pure _
  · exact (understood_typeUses path _).bind fun types => .pure _
  · split
    · refine (understood_fieldsOf path node.properties).bind fun properties => ?_
      refine (Understood.mapM (Node.understood_namedFunction path) _).bind fun functions => ?_
      split
      · exact .pure _
      · exact .pure _
    · exact (node.understood_typeUse path).bind fun type => .pure _

theorem Node.understood_typeDefinition (space : String) (node : Node) :
    Understood (node.typeDefinition space) := by
  refine (understood_required _ .id node.facts.id).bind fun name => ?_
  exact (node.understood_definition _).bind fun definition => .pure _

theorem Node.understood_event (space : String) (node : Node) : Understood (node.event space) := by
  refine (understood_required _ .name node.facts.name).bind fun name => ?_
  exact (understood_parametersOf _ node.parameters).bind fun parameters => .pure _

theorem NamespaceNode.understood_lower (file : String) (node : NamespaceNode) :
    Understood (node.lower file) := by
  refine (understood_required file .namespace node.name).bind fun name => ?_
  refine (Understood.mapM (Node.understood_typeDefinition name) _).bind fun types => ?_
  refine (Understood.mapM (Node.understood_namedFunction name) _).bind fun functions => ?_
  exact (Understood.mapM (Node.understood_event name) _).bind fun events => .pure _

/-! ## Source texts -/

open Json (Token Laid Gap Blank)

/-- The text has the tokens of the document in their order, with white space and complete
comments between and around them, and at most 127 brackets are open at the same time. -/
def Writes (source : String) (document : List NamespaceNode) : Prop :=
  ∃ tokens text last,
    DocumentWritten 127 document tokens ∧ Laid Gap tokens text ∧ Gap last ∧
    source.toList = text ++ last

theorem isBlank_of_isSpace {c : Char} (space : Json.Reader.isSpace c = true) :
    Text.isBlank c = true := by
  simp only [Json.Reader.isSpace, Bool.or_eq_true, beq_iff_eq] at space
  rcases space with ((rfl | rfl) | rfl) | rfl <;> rfl

theorem head?_trimStart {parts : List (List Token)} {text : List Char}
    (laid : Laid Blank (Json.listTokens parts) text) (last : List Char) :
    (Text.trimStart (text ++ last)).head? = some '[' := by
  obtain _ | ⟨blank, spelled, others⟩ := laid
  cases spelled
  have skipped := fun c member => isBlank_of_isSpace (blank c member)
  rw [Text.trimStart, List.append_assoc, List.dropWhile_append_of_pos skipped]
  rfl

theorem Writes.blank_eq {source : String} {document : List NamespaceNode}
    (writes : Writes source document) :
    ∃ tokens text last, DocumentWritten 127 document tokens ∧
      Laid Blank tokens text ∧ Blank last ∧
      Comment.blank source = .ok (String.ofList (text ++ last)) := by
  obtain ⟨tokens, text, last, written, laid, gapped, split⟩ := writes
  obtain ⟨blanked, blankLaid, scansText⟩ := Json.scans_laid laid
  obtain ⟨covered, blank, scansLast⟩ := Json.scans_gap gapped
  refine ⟨tokens, blanked, covered, written, blankLaid, blank, ?_⟩
  have scanned := scansText.append scansLast []
  rw [List.append_nil, ← split] at scanned
  simp [Comment.blank, scanned, Comment.scan, Except.map]

end Externs.Schema

namespace Externs

open Schema

/-- Every spelling of a document is read, and compiles to what its namespaces stand for. -/
theorem compile_eq_lower_of_writes {source : String} {document : List NamespaceNode}
    (filled : document ≠ []) (writes : Writes source document) (file : String) :
    compile source file = Compiled.mk file <$> document.mapM (NamespaceNode.lower file) ∧
      ∀ rejection, compile source file = .error rejection → rejection.OfContent := by
  obtain ⟨tokens, text, last, written, laid, blank, blanked⟩ := writes.blank_eq
  have read : readDocument (text ++ last) = .ok document :=
    Json.whole_eq_ok (reads_document written) laid blank
  have compiled : compile source file =
      Compiled.mk file <$> document.mapM (NamespaceNode.lower file) := by
    obtain ⟨_, -, parts, -, rfl⟩ := written
    simp [compile, blanked, head?_trimStart laid last, read, filled]
  refine ⟨compiled, ?_⟩
  rw [compiled]
  exact (Understood.mapM (NamespaceNode.understood_lower file) document).map _

/-! ### A commented source -/

section

open Json (Token Laid Gap Denotes Spells objectTokens listTokens)

def commentedNode : Node :=
  { facts := { name := some "f", optional := true } }

def commentedDocument : List NamespaceNode :=
  [{ name := some "a/b", functions := [commentedNode] }]

def commentedSource : String :=
  "// spelled\n[\x7b\"functions\": [\x7b\"optional\": \"true\", \"name\": \"f\"\x7d], " ++
    "/* last */ \"\\u006Eamespace\": \"a\\/b\"\x7d]\n"

def commentedTokens : List Token :=
  let node := objectTokens [("optional", [.string "true"]), ("name", [.string "f"])]
  listTokens [objectTokens [("functions", listTokens [node]), ("namespace", [.string "a/b"])]]

theorem denotes_self {text : List Char}
    (plain : ∀ c ∈ text, c ≠ '"' ∧ c ≠ '\\' ∧ 0x20 ≤ c.toNat) : Denotes text text := by
  induction text with
  | nil => exact .nil
  | cons c rest ih =>
      obtain ⟨⟨noQuote, noEscape, printed⟩, others⟩ := List.forall_mem_cons.mp plain
      exact .plain noQuote noEscape printed (ih others)

theorem spells_quoted (value : String)
    (plain : ∀ c ∈ value.toList, c ≠ '"' ∧ c ≠ '\\' ∧ 0x20 ≤ c.toNat) :
    Spells (.string value) ('"' :: value.toList ++ ['"']) :=
  .string (denotes_self plain)

theorem documentWritten_commentedTokens :
    DocumentWritten 127 commentedDocument commentedTokens := by
  have node : commentedNode.Written 124
      (objectTokens [("optional", [.string "true"]), ("name", [.string "f"])]) := by
    refine ⟨[(.optional, [.string "true"]), (.name, [.string "f"])], by decide, ?_, ?_, rfl⟩
    · exact List.forall_mem_cons.mpr ⟨.trueText, List.forall_mem_singleton.mpr (.some rfl)⟩
    · intro field missing
      cases field <;> first | exact .none | exact .omitted | exact absurd missing (by decide)
  refine ⟨_, rfl, _, .cons ⟨[(.functions, _), (.name, _)], by decide, ?_, ?_, rfl⟩ .nil, rfl⟩
  · exact List.forall_mem_cons.mpr
      ⟨⟨_, rfl, _, .cons node .nil, rfl⟩, List.forall_mem_singleton.mpr (.some rfl)⟩
  · intro field missing
    cases field <;> first | exact .none | rfl | exact absurd missing (by decide)

theorem laid_commentedTokens :
    ∃ text, Laid Gap commentedTokens text ∧ commentedSource.toList = text ++ ['\n'] := by
  have space : Gap [' '] := .space rfl .nil
  have line : Gap "// spelled\n".toList := @Gap.line " spelled".toList [] (by decide) .nil
  have unclosed : ¬ ['*', '/'] <:+: [' ', 'l', 'a', 's', 't', ' '] := by decide
  have block : Gap " /* last */ ".toList := .space rfl (.block unclosed space)
  have ending : Denotes "amespace".toList "amespace".toList := denotes_self (by simp)
  have escapedKey : Denotes "\\u006Eamespace".toList "namespace".toList :=
    @Denotes.unit 'n' "006E".toList _ _ (by decide) ending
  have escapedSlash : Denotes ['a', '\\', '/', 'b'] "a/b".toList :=
    .plain (by decide) (by decide) (by decide) (.short (by decide) (denotes_self (by simp)))
  exact ⟨_,
      .cons line (.mark .openList) <| .cons .nil (.mark .openObject) <|
      .cons .nil (spells_quoted "functions" (by simp)) <| .cons .nil (.mark .colon) <|
      .cons space (.mark .openList) <| .cons .nil (.mark .openObject) <|
      .cons .nil (spells_quoted "optional" (by simp)) <| .cons .nil (.mark .colon) <|
      .cons space (spells_quoted "true" (by simp)) <| .cons .nil (.mark .comma) <|
      .cons space (spells_quoted "name" (by simp)) <| .cons .nil (.mark .colon) <|
      .cons space (spells_quoted "f" (by simp)) <| .cons .nil (.mark .closeObject) <|
      .cons .nil (.mark .closeList) <| .cons .nil (.mark .comma) <|
      .cons block (.string escapedKey) <| .cons .nil (.mark .colon) <|
      .cons space (.string escapedSlash) <| .cons .nil (.mark .closeObject) <|
      .cons .nil (.mark .closeList) .nil, rfl⟩

end

theorem compile_commentedSource :
    Writes commentedSource commentedDocument ∧
      ∃ space,
        compile commentedSource "a.json" = .ok { fileName := "a.json", namespaces := [space] } ∧
        space.name = "a/b" ∧ space.functions.map Function.name = ["f"] := by
  obtain ⟨text, laid, split⟩ := laid_commentedTokens
  have writes : Writes commentedSource commentedDocument :=
    ⟨_, text, ['\n'], documentWritten_commentedTokens, laid, .space rfl .nil, split⟩
  have compiled := (compile_eq_lower_of_writes (List.cons_ne_nil _ _) writes "a.json").1
  exact ⟨writes, _, compiled, rfl, rfl⟩

end Externs
