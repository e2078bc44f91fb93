import Externs.Proofs.TypeExpr.Parts

/-!
# Lines and braces of an expression

The lines of an expression are indented by the braces that are open before them. Objects
are nested by moving the lines of the inner one in, so what holds of an expression on its
own holds of it at any depth.
-/

set_option autoImplicit false

namespace Externs

namespace TypeExpr

/-! ## Open braces -/

/-- The number of open braces after a character, unless it closes one that is not open. -/
def nextDepth? (depth : Nat) (c : Char) : Option Nat :=
  if c = '\x7b' then some (depth + 1)
  else if c = '\x7d' then (if depth = 0 then none else some (depth - 1))
  else some depth

/-- The number of open braces after a text, unless one is closed that is not open. -/
def depthAfter? (depth : Nat) (text : List Char) : Option Nat :=
  text.foldlM nextDepth? depth

theorem depthAfter?_append (depth : Nat) (left right : List Char) :
    depthAfter? depth (left ++ right) =
      (depthAfter? depth left).bind fun inner => depthAfter? inner right :=
  List.foldlM_append

theorem count_of_nextDepth? {depth after : Nat} {c : Char}
    (walked : nextDepth? depth c = some after) (rest : List Char) :
    depth + (c :: rest).count '\x7b' + rest.count '\x7d' =
      after + (c :: rest).count '\x7d' + rest.count '\x7b' := by
  rw [nextDepth?] at walked
  split at walked
  · next opened =>
      obtain rfl := Option.some.inj walked
      rw [opened, List.count_cons_self, List.count_cons_of_ne (by decide)]
      omega
  · next unopened =>
      split at walked
      · next closed =>
          split at walked
          · cases walked
          · obtain rfl := Option.some.inj walked
            rw [closed, List.count_cons_self, List.count_cons_of_ne (by decide)]
            omega
      · next unclosed =>
          obtain rfl := Option.some.inj walked
          rw [List.count_cons_of_ne unopened, List.count_cons_of_ne unclosed]
          omega

/-- Braces that are open were opened, and not closed. -/
theorem count_of_depthAfter? {depth after : Nat} {text : List Char}
    (walked : depthAfter? depth text = some after) :
    depth + text.count '\x7b' = after + text.count '\x7d' := by
  induction text generalizing depth with
  | nil => exact congrArg (· + 0) (Option.some.inj walked)
  | cons c rest ih =>
      rw [depthAfter?, List.foldlM_cons] at walked
      obtain ⟨next, stepped, walked⟩ := Option.bind_eq_some_iff.mp walked
      have first := count_of_nextDepth? stepped rest
      have later := ih walked
      omega

def IsBraceless (text : List Char) : Prop :=
  '\x7b' ∉ text ∧ '\x7d' ∉ text

theorem depthAfter?_of_isBraceless {text : List Char} (braceless : IsBraceless text)
    (depth : Nat) : depthAfter? depth text = some depth := by
  obtain ⟨unopened, unclosed⟩ := braceless
  induction text with
  | nil => rfl
  | cons c rest ih =>
      rw [List.mem_cons, not_or] at unopened unclosed
      have same : nextDepth? depth c = some depth := by
        rw [nextDepth?, if_neg (Ne.symm unopened.1), if_neg (Ne.symm unclosed.1)]
      rw [depthAfter?, List.foldlM_cons, same]
      exact ih unopened.2 unclosed.2

/-! ## Lines -/

/-- Whether a text starts with something else than a space or the end of an object. -/
def isShown : List Char → Bool
  | [] => false
  | first :: _ => first != ' ' && first != '\x7d'

theorem isShown_append {text : List Char} (shown : isShown text = true) (more : List Char) :
    isShown (text ++ more) = true := by
  cases text with
  | nil => cases shown
  | cons first rest => exact shown

/-- A line with `depth` open braces before it: two spaces for each of them, less one if the
line closes it, and then a character that is no space. -/
def IsIndented (depth : Nat) (line : List Char) : Prop :=
  ∃ indent first more, line = List.replicate (2 * indent) ' ' ++ first :: more ∧ first ≠ ' ' ∧
    depth = indent + if first = '\x7d' then 1 else 0

theorem isIndented_of_isShown {text : List Char} (shown : isShown text = true) (depth : Nat) :
    IsIndented depth (List.replicate (2 * depth) ' ' ++ text) := by
  cases text with
  | nil => cases shown
  | cons first more =>
      rw [isShown, Bool.and_eq_true, bne_iff_ne, bne_iff_ne] at shown
      exact ⟨depth, first, more, rfl, shown.1, by rw [if_neg shown.2]; rfl⟩

/-- Lines with `depth` open braces before them, and none after them. -/
def AreIndented (depth : Nat) : List String → Prop
  | [] => depth = 0
  | line :: rest =>
      IsIndented depth line.toList ∧
        ∃ after, depthAfter? depth line.toList = some after ∧ AreIndented after rest

theorem AreIndented.depthAfter?_eq {depth : Nat} {lines : List String}
    (indented : AreIndented depth lines) :
    depthAfter? depth (lines.flatMap String.toList) = some 0 := by
  induction lines generalizing depth with
  | nil => exact congrArg some indented
  | cons line rest ih =>
      obtain ⟨-, after, walked, others⟩ := indented
      rw [List.flatMap_cons, depthAfter?_append, walked]
      exact ih others

theorem AreIndented.exists_depth {depth : Nat} {before after : List String} {line : String}
    (indented : AreIndented depth (before ++ line :: after)) :
    ∃ inner, depthAfter? depth (before.flatMap String.toList) = some inner ∧
      IsIndented inner line.toList := by
  induction before generalizing depth with
  | nil => exact ⟨depth, rfl, indented.1⟩
  | cons first rest ih =>
      obtain ⟨-, next, walked, others⟩ := indented
      obtain ⟨inner, reached, start⟩ := ih others
      refine ⟨inner, ?_, start⟩
      rw [List.flatMap_cons, depthAfter?_append, walked]
      exact reached

theorem AreIndented.ne_empty {depth : Nat} {lines : List String} {line : String}
    (indented : AreIndented depth lines) (member : line ∈ lines) : line ≠ "" := by
  obtain ⟨before, after, rfl⟩ := List.append_of_mem member
  obtain ⟨inner, -, indent, first, more, text, -⟩ := indented.exists_depth
  rintro rfl
  simp at text

/-! ## Expressions with nested braces -/

/-- An expression that leads from one number of open braces to another. A line is broken
off at their number; it starts with some text, or it closes the last of them. -/
inductive Nests : Nat → TypeExpr → Nat → Prop where
  | nil {depth : Nat} : Nests depth [] depth
  | text {depth after : Nat} {content : String} {rest : TypeExpr} :
      IsBraceless content.toList → Nests depth rest after →
      Nests depth (.text content :: rest) after
  | opening {depth after : Nat} {rest : TypeExpr} :
      Nests (depth + 1) rest after → Nests depth (.text "\x7b" :: rest) after
  | newline {depth after : Nat} {content : String} {rest : TypeExpr} :
      isShown content.toList = true → Nests depth (.text content :: rest) after →
      Nests depth (.newline depth :: .text content :: rest) after
  | closing {depth after : Nat} {rest : TypeExpr} :
      Nests depth rest after → Nests (depth + 1) (.newline depth :: .text "\x7d" :: rest) after

theorem Nests.append {depth middle after : Nat} {left right : TypeExpr}
    (first : Nests depth left middle) (second : Nests middle right after) :
    Nests depth (left ++ right) after := by
  induction first with
  | nil => exact second
  | text braceless _ ih => exact .text braceless (ih second)
  | opening _ ih => exact .opening (ih second)
  | newline shown _ ih => exact .newline shown (ih second)
  | closing _ ih => exact .closing (ih second)

theorem Nests.deepen {depth after : Nat} {expression : TypeExpr}
    (nests : Nests depth expression after) :
    Nests (depth + 1) (deepen expression) (after + 1) := by
  induction nests with
  | nil => exact .nil
  | text braceless _ ih => exact .text braceless ih
  | opening _ ih => exact .opening ih
  | newline shown _ ih => exact .newline shown ih
  | closing _ ih => exact .closing ih

theorem nests_text {content : String} (braceless : IsBraceless content.toList) (depth : Nat) :
    Nests depth (ofText content) depth :=
  .text braceless .nil

theorem nests_joined {separator : String} (braceless : IsBraceless separator.toList)
    {depth : Nat} {expressions : List TypeExpr}
    (nests : ∀ expression ∈ expressions, Nests depth expression depth) :
    Nests depth (joined separator expressions) depth := by
  fun_induction joined separator expressions with
  | case1 => exact .nil
  | case2 last => exact nests last List.mem_cons_self
  | case3 first rest more ih =>
      have others := ih fun later member => nests later (List.mem_cons_of_mem _ member)
      exact ((nests first List.mem_cons_self).append (nests_text braceless depth)).append others

/-- The text of an expression up to its first line break. -/
def leading : TypeExpr → List Char
  | [] => []
  | .text content :: rest => content.toList ++ leading rest
  | .newline _ :: _ => []

theorem Nests.areIndented {depth : Nat} {expression : TypeExpr}
    (nests : Nests depth expression 0) {outer : Nat} {current : String}
    (start : IsIndented outer (current.toList ++ leading expression))
    (walked : depthAfter? outer current.toList = some depth) :
    AreIndented outer (linesAfter current expression) := by
  -- The expression goes on in the current line: with the text before its next break this
  -- line is indented, and without it `depth` braces are open.
  generalize closed : 0 = after at nests
  induction nests generalizing outer current with
  | nil =>
      rw [leading, List.append_nil] at start
      exact ⟨start, _, walked, closed.symm⟩
  | @text depth after content rest braceless _ ih =>
      refine ih ?_ ?_ closed
      · rwa [String.toList_append, List.append_assoc]
      · rw [String.toList_append, depthAfter?_append, walked]
        exact depthAfter?_of_isBraceless braceless depth
  | opening _ ih =>
      refine ih ?_ ?_ closed
      · rwa [String.toList_append, List.append_assoc]
      · rw [String.toList_append, depthAfter?_append, walked]
        rfl
  | @newline depth after content rest shown _ ih =>
      rw [leading, List.append_nil] at start
      refine ⟨start, depth, walked, ih ?_ ?_ closed⟩
      · rw [indentation, String.toList_ofList]
        exact isIndented_of_isShown (isShown_append shown _) depth
      · rw [indentation, String.toList_ofList]
        exact depthAfter?_of_isBraceless (by simp [IsBraceless]) depth
  | @closing depth after rest _ ih =>
      rw [leading, List.append_nil] at start
      refine ⟨start, depth + 1, walked, ih ?_ ?_ closed⟩
      · rw [String.toList_append, List.append_assoc, indentation, String.toList_ofList]
        exact ⟨depth, '\x7d', leading rest, rfl, by decide, rfl⟩
      · rw [String.toList_append, depthAfter?_append, indentation, String.toList_ofList,
          depthAfter?_of_isBraceless (by simp [IsBraceless])]
        rfl

/-! ## Expressions of names that are dotted identifiers -/

theorem IsBraceless.append {left right : List Char} (inLeft : IsBraceless left)
    (inRight : IsBraceless right) : IsBraceless (left ++ right) := by
  simp only [IsBraceless, List.mem_append, not_or]
  exact ⟨⟨inLeft.1, inRight.1⟩, inLeft.2, inRight.2⟩

theorem isBraceless_of_forall {test : Char → Bool} (opening : test '\x7b' = false)
    (closing : test '\x7d' = false) {text : List Char} (each : ∀ c ∈ text, test c = true) :
    IsBraceless text := by
  constructor
  · intro member
    exact absurd (each _ member) (by rw [opening]; exact Bool.false_ne_true)
  · intro member
    exact absurd (each _ member) (by rw [closing]; exact Bool.false_ne_true)

theorem isBraceless_of_isInline {content : String} (inline : isInline content = true) :
    IsBraceless content.toList := by
  rw [isInline, List.all_eq_true] at inline
  exact isBraceless_of_forall (by decide) (by decide) inline

theorem isBraceless_of_isDottedPart {text : List Char}
    (parts : ∀ c ∈ text, Name.isDottedPart c = true) : IsBraceless text :=
  isBraceless_of_forall (by decide) (by decide) parts

theorem isShown_of_isDotted {name : String} (dotted : Name.isDotted name = true) :
    isShown name.toList = true := by
  have parts := Name.isDottedPart_of_isDotted dotted
  cases text : name.toList with
  | nil =>
      rw [Name.isDotted, text] at dotted
      cases dotted
  | cons first more =>
      rw [text] at parts
      have part := parts first List.mem_cons_self
      rw [isShown, Bool.and_eq_true, bne_iff_ne, bne_iff_ne]
      constructor
      · rintro rfl
        exact absurd part (by decide)
      · rintro rfl
        exact absurd part (by decide)

theorem nests_object {fields : List TypeExpr}
    (labelled : ∀ field ∈ fields, IsLabelled Name.isDotted field)
    (nests : ∀ field ∈ fields, Nests 0 field 0) : Nests 0 (object fields) 0 := by
  have inside : Nests 1 (joined "," (fields.map fun field => deepen (.newline 0 :: field))) 1 := by
    refine nests_joined (isBraceless_of_isInline (by decide)) ?_
    refine List.forall_mem_map.mpr fun field member => ?_
    obtain ⟨name, type, dotted, rfl⟩ := labelled field member
    have shown : isShown (name ++ ": ").toList = true := by
      rw [String.toList_append]
      exact isShown_append (isShown_of_isDotted dotted) _
    exact (Nests.newline shown (nests _ member)).deepen
  exact .opening (inside.append (.closing .nil))

theorem Written.nests {scope : Scope} (named : scope.isNamed = true) {expression : TypeExpr}
    (written : Written scope Name.isDotted expression) : Nests 0 expression 0 := by
  induction written with
  | nil => exact .nil
  | fixed inline => exact nests_text (isBraceless_of_isInline inline) 0
  | reference dotted =>
      exact nests_text
        (isBraceless_of_isDottedPart (Scope.isDottedPart_of_mem_qualify named dotted)) 0
  | label dotted =>
      refine nests_text ?_ 0
      rw [String.toList_append]
      exact (isBraceless_of_isDottedPart (Name.isDottedPart_of_isDotted dotted)).append
        (isBraceless_of_isInline (by decide))
  | append _ _ inLeft inRight => exact inLeft.append inRight
  | object labelled _ ih => exact nests_object labelled ih

/-! ## Layout -/

/-- Lines that are laid out by their braces. No line is empty or has a line feed, braces are
closed after they are opened, and a line starts with two spaces for each brace that is open
before it, or one brace less if it starts with a closing one. -/
structure IsLaidOut (lines : List String) : Prop where
  shown : ∀ line ∈ lines, line ≠ "" ∧ '\n' ∉ line.toList
  opened : ∀ front, front <+: lines.flatMap String.toList →
    front.count '\x7d' ≤ front.count '\x7b'
  closed : (lines.flatMap String.toList).count '\x7b' = (lines.flatMap String.toList).count '\x7d'
  indented : ∀ before line after, lines = before ++ line :: after →
    ∃ depth first more, line.toList = List.replicate (2 * depth) ' ' ++ first :: more ∧
      first ≠ ' ' ∧
      (before.flatMap String.toList).count '\x7b' =
        (before.flatMap String.toList).count '\x7d' + depth + if first = '\x7d' then 1 else 0

theorem AreIndented.isLaidOut {lines : List String} (indented : AreIndented 0 lines)
    (unbroken : ∀ line ∈ lines, '\n' ∉ line.toList) : IsLaidOut lines where
  shown line member := ⟨indented.ne_empty member, unbroken line member⟩
  opened := by
    rintro front ⟨back, whole⟩
    have walked := indented.depthAfter?_eq
    rw [← whole, depthAfter?_append] at walked
    obtain ⟨inner, walked, -⟩ := Option.bind_eq_some_iff.mp walked
    have balance := count_of_depthAfter? walked
    omega
  closed := by
    have balance := count_of_depthAfter? indented.depthAfter?_eq
    omega
  indented := by
    rintro before line after rfl
    obtain ⟨inner, walked, depth, first, more, text, spaceless, counted⟩ := indented.exists_depth
    have balance := count_of_depthAfter? walked
    exact ⟨depth, first, more, text, spaceless, by omega⟩

end TypeExpr

/-! ## Types -/

/-- The expression of a type starts on its first line with some text. -/
theorem TypeKind.isShown_expression {scope : Scope} (named : scope.isNamed = true)
    (path : String) (kind : TypeKind) :
    Ensures (kind.expression scope path) fun expression =>
      TypeExpr.isShown expression.leading = true := by
  have root := TypeExpr.isShown_of_isDotted (Bool.and_eq_true_iff.mp named).1
  cases kind with
  | string => exact Ensures.pure (by decide)
  | integer => exact Ensures.pure (by decide)
  | number => exact Ensures.pure (by decide)
  | boolean => exact Ensures.pure (by decide)
  | any => exact Ensures.pure (by decide)
  | binary => exact Ensures.pure (by decide)
  | object => exact Ensures.pure (by decide)
  | reference name =>
      rw [TypeKind.expression]
      split
      · refine Ensures.pure ?_
        rw [Scope.qualify]
        split <;>
          simp only [TypeExpr.ofText, TypeExpr.leading, String.toList_append, List.append_assoc,
            TypeExpr.isShown_append root]
      · exact Ensures.throw _ _
  | array item =>
      rw [TypeKind.expression]
      exact Ensures.after fun inner => Ensures.pure (TypeExpr.isShown_append rfl _)
  | inlineObject properties =>
      rw [TypeKind.expression]
      cases properties with
      | nil => exact Ensures.throw _ _
      | cons first rest =>
          rw [objectExpression]
          refine Ensures.after fun head => Ensures.after fun others => Ensures.pure ?_
          exact TypeExpr.isShown_append rfl _
  | choices choices =>
      rw [TypeKind.expression]
      cases choices with
      | nil => exact Ensures.throw _ _
      | cons first rest =>
          rw [unionExpression]
          refine Ensures.after fun head => Ensures.after fun others => Ensures.pure ?_
          exact TypeExpr.isShown_append rfl _
  | function function =>
      obtain ⟨name, parameters, returns, description, deprecated⟩ := function
      rw [TypeKind.expression, Function.expression]
      refine Ensures.after fun inputs => Ensures.after fun result => Ensures.pure ?_
      exact TypeExpr.isShown_append rfl _

theorem TypeUse.isShown_expression {scope : Scope} (named : scope.isNamed = true)
    (path : String) (type : TypeUse) :
    Ensures (type.expression scope path) fun expression =>
      TypeExpr.isShown expression.leading = true := by
  obtain ⟨kind, nullable⟩ := type
  have mark : kind.mark nullable = "" ∨ TypeExpr.isShown (kind.mark nullable).toList = true := by
    cases kind <;> cases nullable <;> simp [TypeKind.mark, TypeExpr.isShown]
  rw [TypeUse.expression]
  refine (kind.isShown_expression named path).bind fun expression shown => Ensures.pure ?_
  cases mark with
  | inl unmarked =>
      rw [unmarked]
      exact shown
  | inr marked => exact TypeExpr.isShown_append marked _

/-- The expression of a type is laid out by its braces, whatever is nested in it. -/
theorem TypeUse.isLaidOut_lines_expression {scope : Scope} (named : scope.isNamed = true)
    (type : TypeUse) (names : type.all TypeKind.isNamed = true) (path : String)
    {expression : TypeExpr} (success : type.expression scope path = .ok expression) :
    TypeExpr.IsLaidOut expression.lines := by
  rw [TypeKind.isNamed_eq_hasNames] at names
  have written := type.written_expression path names expression success
  have shown := type.isShown_expression named path expression success
  have indented : TypeExpr.AreIndented 0 expression.lines :=
    (written.nests named).areIndented (TypeExpr.isIndented_of_isShown shown 0) rfl
  have lacks := written.lacks (foreign_of_isDottedPart (c := '\n') rfl rfl named)
  exact indented.isLaidOut (lacks.lines rfl (by decide))

/-- A union of a name and an array of objects that have a callback with an object. -/
def nestedType : TypeUse :=
  let inner : TypeUse := ⟨.inlineObject [⟨"id", ⟨.integer, false⟩, true, none, none⟩], true⟩
  let callback : TypeUse :=
    ⟨.function ⟨"f", [⟨"x", inner, true, none, none⟩], none, none, none⟩, true⟩
  let item : TypeUse :=
    ⟨.inlineObject [⟨"a", callback, true, none, none⟩, ⟨"b", inner, false, none, none⟩], false⟩
  ⟨.choices [⟨.reference "Tab", false⟩, ⟨.array item, true⟩], true⟩

theorem TypeUse.isLaidOut_lines_nestedType :
    ∃ expression, nestedType.expression ⟨"chrome", "tabs"⟩ "Tab" = .ok expression ∧
      expression.lines =
        ["?(!chrome.tabs.Tab|Array<\x7b",
          "  a: (?function(?\x7b",
          "    id: (number|undefined)",
          "  \x7d|undefined):void|undefined),",
          "  b: ?\x7b",
          "    id: (number|undefined)",
          "  \x7d",
          "\x7d>)"] ∧
      TypeExpr.IsLaidOut expression.lines :=
  ⟨_, rfl, by decide +kernel,
    TypeUse.isLaidOut_lines_expression (by decide) nestedType (by decide) "Tab" rfl⟩

end Externs
