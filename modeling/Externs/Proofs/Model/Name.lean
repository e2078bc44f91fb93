import Externs.TypeExpr.OfType

/-!
# Names

Which names are identifiers, which references are well formed, and conditions on
all types that are nested in a type.
-/

set_option autoImplicit false

namespace Externs

/-! ## References -/

/-- A reference is malformed if it is empty, has an empty part between its dots, or
has a blank in it. -/
def isMalformed (name : String) : Bool :=
  name.isEmpty || (name.toList.splitOn '.').any List.isEmpty || name.toList.any Text.isBlank

theorem segments_eq_splitOn (text : List Char) : segments text = text.splitOn '.' := by
  induction text with
  | nil => rfl
  | cons c rest ih =>
      rw [segments, List.splitOn_cons_eq_if_modifyHead, ih]
      by_cases dot : c = '.'
      · rw [if_pos dot, if_pos (by simpa using dot)]
      · rw [if_neg dot, if_neg (by simpa using dot)]
        cases parts : rest.splitOn '.' with
        | nil => exact absurd parts (List.splitOn_ne_nil _ _)
        | cons segment more => rfl

/-- The parts between the dots have all characters but the dots, which are not blank. -/
theorem any_splitOn_any_isBlank (text : List Char) :
    (text.splitOn '.').any (fun segment => segment.any Text.isBlank) = text.any Text.isBlank := by
  induction text with
  | nil => rfl
  | cons c rest ih =>
      rw [List.splitOn_cons_eq_if_modifyHead, List.any_cons, ← ih]
      by_cases dot : c = '.'
      · rw [if_pos (by simpa using dot), dot]
        rfl
      · rw [if_neg (by simpa using dot)]
        cases parts : rest.splitOn '.' with
        | nil => exact absurd parts (List.splitOn_ne_nil _ _)
        | cons segment more => simp [Bool.or_assoc]

theorem isReference_eq_not_isMalformed (name : String) : isReference name = !isMalformed name := by
  have empty : name.isEmpty = true → (name.toList.splitOn '.').any List.isEmpty = true := by
    intro empty
    rw [String.isEmpty_iff.mp empty]
    rfl
  have both (parts : List (List Char)) :
      (parts.all fun segment => !segment.isEmpty && !segment.any Text.isBlank) =
        !(parts.any List.isEmpty || parts.any fun segment => segment.any Text.isBlank) := by
    induction parts with
    | nil => rfl
    | cons segment more ih =>
        rw [List.all_cons, List.any_cons, List.any_cons, ih]
        cases segment.isEmpty <;> cases segment.any Text.isBlank <;> simp
  rw [isReference, segments_eq_splitOn, both, any_splitOn_any_isBlank, isMalformed]
  cases blank : name.isEmpty with
  | false => rw [Bool.false_or]
  | true => simp [empty blank]

/-! ## Identifiers -/

namespace Name

/-- The characters of identifiers. What lies beyond ASCII counts as a letter unless
it is blank. -/
def isPart (c : Char) : Bool :=
  c.isAlphanum || c == '_' || c == '$' || (0x80 ≤ c.toNat && !Text.isBlank c)

/-- An identifier has a character and does not start with a digit. -/
def isIdentifier : List Char → Bool
  | [] => false
  | c :: rest => !c.isDigit && (c :: rest).all isPart

/-- Identifiers with dots between them; a single identifier is one too. -/
def isDotted (name : String) : Bool :=
  (name.toList.splitOn '.').all isIdentifier

def isDottedPart (c : Char) : Bool :=
  isPart c || c == '.'

theorem toNat_of_isAlphanum {c : Char} (word : c.isAlphanum = true) :
    (48 ≤ c.toNat ∧ c.toNat ≤ 57) ∨ (65 ≤ c.toNat ∧ c.toNat ≤ 90) ∨
      (97 ≤ c.toNat ∧ c.toNat ≤ 122) := by
  rcases Bool.or_eq_true_iff.mp word with letter | digit
  · rcases Bool.or_eq_true_iff.mp letter with upper | lower
    · exact .inr (.inl (of_decide_eq_true upper))
    · obtain ⟨least, greatest⟩ := Bool.and_eq_true_iff.mp lower
      exact .inr (.inr ⟨of_decide_eq_true least, of_decide_eq_true greatest⟩)
  · obtain ⟨least, greatest⟩ := Bool.and_eq_true_iff.mp digit
    exact .inl ⟨of_decide_eq_true least, of_decide_eq_true greatest⟩

theorem toNat_of_isPart {c : Char} (part : isPart c = true) :
    (48 ≤ c.toNat ∧ c.toNat ≤ 57) ∨ (65 ≤ c.toNat ∧ c.toNat ≤ 90) ∨
      (97 ≤ c.toNat ∧ c.toNat ≤ 122) ∨ c.toNat = 95 ∨ c.toNat = 36 ∨
      (0x80 ≤ c.toNat ∧ Text.isBlank c = false) := by
  simp only [isPart, Bool.or_eq_true, Bool.and_eq_true, decide_eq_true_eq, beq_iff_eq,
    Bool.not_eq_true'] at part
  rcases part with ((word | rfl) | rfl) | wide
  · rcases toNat_of_isAlphanum word with digit | upper | lower
    · exact .inl digit
    · exact .inr (.inl upper)
    · exact .inr (.inr (.inl lower))
  · exact .inr (.inr (.inr (.inl rfl)))
  · exact .inr (.inr (.inr (.inr (.inl rfl))))
  · exact .inr (.inr (.inr (.inr (.inr wide))))

theorem isBlank_eq_false_of_isPart {c : Char} (part : isPart c = true) :
    Text.isBlank c = false := by
  rcases toNat_of_isPart part with code | code | code | code | code | wide
  case inr.inr.inr.inr.inr => exact wide.2
  all_goals
    simp only [Text.isBlank, Bool.or_eq_false_iff, Bool.and_eq_false_iff, decide_eq_false_iff_not,
      beq_eq_false_iff_ne]
    omega

/-- A dotted identifier has no characters but those of its parts and dots. -/
theorem isDottedPart_of_isDotted {name : String} (dotted : isDotted name = true) :
    ∀ c ∈ name.toList, isDottedPart c = true := by
  have parts (text : List Char)
      (identifiers : (text.splitOn '.').all (fun part => part.all isPart) = true) :
      ∀ c ∈ text, isDottedPart c = true := by
    induction text with
    | nil => simp
    | cons first rest ih =>
        rw [List.splitOn_cons_eq_if_modifyHead] at identifiers
        by_cases dot : first = '.'
        · rw [if_pos (by simpa using dot), List.all_cons] at identifiers
          simpa [isDottedPart, dot] using ih (by simpa using identifiers)
        · rw [if_neg (by simpa using dot)] at identifiers
          cases split : rest.splitOn '.' with
          | nil => exact absurd split (List.splitOn_ne_nil _ _)
          | cons segment more =>
              rw [split] at ih identifiers
              simp only [List.modifyHead_cons, List.all_cons, Bool.and_eq_true] at ih identifiers
              intro c member
              rcases List.mem_cons.mp member with rfl | later
              · simp [isDottedPart, identifiers.1.1]
              · exact ih ⟨identifiers.1.2, identifiers.2⟩ c later
  apply parts
  rw [isDotted, List.all_eq_true] at dotted
  rw [List.all_eq_true]
  intro part member
  have identifier := dotted part member
  cases part with
  | nil => rfl
  | cons c rest => exact (Bool.and_eq_true_iff.mp identifier).2

theorem isMalformed_eq_false_of_isDotted {name : String} (dotted : isDotted name = true) :
    isMalformed name = false := by
  have whole : ∀ part ∈ name.toList.splitOn '.', part.isEmpty = false := by
    intro part member
    have identifier := List.all_eq_true.mp dotted part member
    cases part with
    | nil => exact absurd identifier (by decide)
    | cons c rest => rfl
  have shown : ∀ c ∈ name.toList, Text.isBlank c = false := by
    intro c member
    rcases Bool.or_eq_true_iff.mp (isDottedPart_of_isDotted dotted c member) with part | dot
    · exact isBlank_eq_false_of_isPart part
    · rw [beq_iff_eq.mp dot]
      rfl
  have filled : name.isEmpty = false := by
    cases empty : name.isEmpty with
    | false => rfl
    | true =>
        rw [String.isEmpty_iff.mp empty] at whole
        exact whole [] (by decide)
  simp only [isMalformed, filled, Bool.false_or, Bool.or_eq_false_iff, List.any_eq_false]
  exact ⟨fun part member => by simp [whole part member], fun c member => by simp [shown c member]⟩

theorem isReference_of_isDotted {name : String} (dotted : isDotted name = true) :
    isReference name = true := by
  rw [isReference_eq_not_isMalformed, isMalformed_eq_false_of_isDotted dotted]
  rfl

end Name

def Scope.isNamed (scope : Scope) : Bool :=
  Name.isDotted scope.root && Name.isDotted scope.space

theorem Scope.isDottedPart_of_mem_qualify {scope : Scope} (named : scope.isNamed = true)
    {name : String} (dotted : Name.isDotted name = true) :
    ∀ c ∈ (scope.qualify name).toList, Name.isDottedPart c = true := by
  obtain ⟨root, space⟩ := Bool.and_eq_true_iff.mp named
  have inRoot := Name.isDottedPart_of_isDotted root
  have inSpace := Name.isDottedPart_of_isDotted space
  have inName := Name.isDottedPart_of_isDotted dotted
  have dot : Name.isDottedPart '.' = true := by decide
  intro c member
  rw [Scope.qualify] at member
  split at member
  · simp only [String.toList_append, List.mem_append] at member
    rcases member with (member | member) | member
    · exact inRoot c member
    · rwa [List.mem_singleton.mp member]
    · exact inName c member
  · simp only [String.toList_append, List.mem_append] at member
    rcases member with (((member | member) | member) | member) | member
    · exact inRoot c member
    · rwa [List.mem_singleton.mp member]
    · exact inSpace c member
    · rwa [List.mem_singleton.mp member]
    · exact inName c member

theorem Scope.dot_mem_qualify (scope : Scope) (name : String) :
    '.' ∈ (scope.qualify name).toList := by
  rw [Scope.qualify]
  split <;> simp

/-! ## Conditions on all types in a type -/

mutual

/-- Whether a type and all types in it pass a test. -/
def TypeUse.all (test : TypeKind → Bool) : TypeUse → Bool
  | ⟨kind, _⟩ => kind.all test

def TypeKind.all (test : TypeKind → Bool) : TypeKind → Bool
  | .inlineObject properties => test (.inlineObject properties) && allProperties test properties
  | .array item => test (.array item) && item.all test
  | .choices choices => test (.choices choices) && allChoices test choices
  | .function function => test (.function function) && function.all test
  | .reference name => test (.reference name)
  | .string => test .string
  | .integer => test .integer
  | .number => test .number
  | .boolean => test .boolean
  | .any => test .any
  | .binary => test .binary
  | .object => test .object

/-- Whether all types in the signature of a function pass a test. -/
def Function.all (test : TypeKind → Bool) : Function → Bool
  | ⟨_, parameters, returns, _, _⟩ => allProperties test parameters && allReturn test returns

def allProperties (test : TypeKind → Bool) : List Property → Bool
  | [] => true
  | ⟨_, type, _, _, _⟩ :: rest => type.all test && allProperties test rest

def allChoices (test : TypeKind → Bool) : List TypeUse → Bool
  | [] => true
  | first :: rest => first.all test && allChoices test rest

def allReturn (test : TypeKind → Bool) : Option Return → Bool
  | none => true
  | some ⟨type, _⟩ => type.all test

end

theorem allProperties_eq_all (test : TypeKind → Bool) (properties : List Property) :
    allProperties test properties = properties.all fun property => property.type.all test := by
  induction properties with
  | nil => rfl
  | cons property rest ih =>
      obtain ⟨name, type, optional, description, jsexterns⟩ := property
      rw [allProperties, ih, List.all_cons]

/-- The names that a type is written with are dotted identifiers: the one that it
refers to, and those of its fields. -/
def TypeKind.isNamed : TypeKind → Bool
  | .reference name => Name.isDotted name
  | .inlineObject properties => properties.all fun property => Name.isDotted property.name
  | _ => true

/-- An object has a field, and a union has an alternative. -/
def TypeKind.isPopulated : TypeKind → Bool
  | .inlineObject properties => !properties.isEmpty
  | .choices alternatives => !alternatives.isEmpty
  | _ => true

/-- A type that can be written, with names that can be told from the rest of the text. -/
def TypeKind.isSpelled (kind : TypeKind) : Bool :=
  kind.isNamed && kind.isPopulated

end Externs
