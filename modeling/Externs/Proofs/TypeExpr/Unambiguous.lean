import Externs.Proofs.TypeExpr.Erased

/-!
# Annotations are unambiguous

The text of an annotation tells where it ends and what it says, whatever stands
behind it. So two types have the same annotation exactly if the annotation says
the same of both.
-/

set_option autoImplicit false

namespace Externs.ErasedType

/-! ## Runs of characters -/

/-- The first characters of a text that pass a test can be told from the rest. -/
theorem append_inj_of_run {test : Char → Bool} {front front' back back' : List Char}
    (passes : ∀ c ∈ front, test c = true) (passes' : ∀ c ∈ front', test c = true)
    (stops : ∀ c ∈ back.head?, test c = false) (stops' : ∀ c ∈ back'.head?, test c = false)
    (same : front ++ back = front' ++ back') : front = front' ∧ back = back' := by
  have run {front back : List Char} (passes : ∀ c ∈ front, test c = true)
      (stops : ∀ c ∈ back.head?, test c = false) : (front ++ back).takeWhile test = front := by
    rw [List.takeWhile_append_of_pos passes]
    cases back with
    | nil => simp
    | cons c rest => simp [stops c rfl]
  have fronts : front = front' := by
    rw [← run passes stops, same, run passes' stops']
  subst fronts
  exact ⟨rfl, List.append_cancel_left same⟩

/-- The characters of marks and words. -/
def isOpening (c : Char) : Bool :=
  Name.isDottedPart c || c == '!' || c == '?'

/-- What stands behind an annotation cannot be taken for a part of its word. -/
def Ends (rest : List Char) : Prop :=
  ∀ c ∈ rest.head?, isOpening c = false

theorem ends_nil : Ends [] := by
  intro c member
  cases member

theorem ends_cons {c : Char} (closing : isOpening c = false) (rest : List Char) :
    Ends (c :: rest) := by
  intro other member
  cases member
  exact closing

/-! ## Legible annotations -/

mutual

/-- All names are dotted identifiers, paths have a dot, and nothing is empty. -/
def Legible : ErasedType → Prop
  | .plain _ => True
  | .named _ path => (∀ c ∈ path.toList, Name.isDottedPart c = true) ∧ '.' ∈ path.toList
  | .array _ item => item.Legible
  | .union _ alternatives => alternatives ≠ [] ∧ LegibleAlternatives alternatives
  | .object _ fields => fields ≠ [] ∧ LegibleFields fields
  | .function _ parameters result => LegibleParameters parameters ∧ LegibleResult result

def LegibleAlternatives : List ErasedType → Prop
  | [] => True
  | first :: rest => first.Legible ∧ LegibleAlternatives rest

def LegibleField : Field → Prop
  | ⟨name, type, _⟩ => (∀ c ∈ name.toList, Name.isDottedPart c = true) ∧ type.Legible

def LegibleFields : List Field → Prop
  | [] => True
  | first :: rest => LegibleField first ∧ LegibleFields rest

def LegibleParameter : Parameter → Prop
  | ⟨type, _⟩ => type.Legible

def LegibleParameters : List Parameter → Prop
  | [] => True
  | first :: rest => LegibleParameter first ∧ LegibleParameters rest

def LegibleResult : Option ErasedType → Prop
  | none => True
  | some type => type.Legible

end

/-! ## What a reader sees first -/

inductive Form where
  | plain
  | named
  | array
  | union
  | object
  | function
  deriving DecidableEq

def form : ErasedType → Form
  | .plain _ => .plain
  | .named _ _ => .named
  | .array _ _ => .array
  | .union _ _ => .union
  | .object _ _ => .object
  | .function _ _ _ => .function

/-- The form of an annotation by its word and the character behind it. -/
def formOf (word : String) (next : Option Char) : Form :=
  if '.' ∈ word.toList then .named
  else if word = "Array" then .array
  else if word = "function" then .function
  else if word = "" ∧ next = some '(' then .union
  else if word = "" ∧ next = some '\x7b' then .object
  else .plain

theorem isOpening_of_mem_mark (said : ErasedType) :
    ∀ c ∈ said.mark, isOpening c = true ∧ Name.isDottedPart c = false := by
  have both : ∀ c ∈ ['!', '?'], isOpening c = true ∧ Name.isDottedPart c = false := by
    rw [List.forall_mem_cons, List.forall_mem_singleton]
    decide
  intro c member
  apply both
  cases said with
  | plain type => cases member
  | named nullable path => cases nullable <;> simp_all [mark]
  | array nullable item => cases nullable <;> simp_all [mark]
  | union nullable alternatives => cases nullable <;> simp_all [mark]
  | object nullable fields => cases nullable <;> simp_all [mark]
  | function nullable parameters result => cases nullable <;> simp_all [mark]

theorem isDottedPart_of_mem_word {said : ErasedType} (legible : said.Legible) :
    ∀ c ∈ said.word.toList, Name.isDottedPart c = true := by
  cases said with
  | plain type => cases type <;> exact List.all_eq_true.mp (by decide)
  | named nullable path =>
      rw [Legible] at legible
      exact legible.1
  | array nullable item =>
      have parts : "Array".toList.all Name.isDottedPart = true := by decide
      exact List.all_eq_true.mp parts
  | union nullable alternatives => exact List.all_eq_true.mp rfl
  | object nullable fields => exact List.all_eq_true.mp rfl
  | function nullable parameters result =>
      have parts : "function".toList.all Name.isDottedPart = true := by decide
      exact List.all_eq_true.mp parts

theorem ends_body_append (depth : Nat) (said : ErasedType) {rest : List Char}
    (ends : Ends rest) : Ends (said.body depth ++ rest) := by
  cases said with
  | plain type =>
      cases type with
      | any => exact ends_cons (by decide) rest
      | _ => exact ends
  | named nullable path => exact ends
  | array nullable item => exact ends_cons (by decide) _
  | union nullable alternatives =>
      cases alternatives with
      | nil => exact ends_cons (by decide) _
      | cons first more => exact ends_cons (by decide) _
  | object nullable fields =>
      cases fields with
      | nil => exact ends_cons (by decide) _
      | cons first more => exact ends_cons (by decide) _
  | function nullable parameters result =>
      cases parameters with
      | nil => exact ends_cons (by decide) _
      | cons first more => exact ends_cons (by decide) _

theorem parts_inj {mark mark' word word' back back' : List Char}
    (marks : ∀ c ∈ mark, isOpening c = true ∧ Name.isDottedPart c = false)
    (marks' : ∀ c ∈ mark', isOpening c = true ∧ Name.isDottedPart c = false)
    (words : ∀ c ∈ word, Name.isDottedPart c = true)
    (words' : ∀ c ∈ word', Name.isDottedPart c = true) (ends : Ends back) (ends' : Ends back')
    (same : mark ++ word ++ back = mark' ++ word' ++ back') :
    mark = mark' ∧ word = word' ∧ back = back' := by
  have opening {mark word : List Char}
      (marks : ∀ c ∈ mark, isOpening c = true ∧ Name.isDottedPart c = false)
      (words : ∀ c ∈ word, Name.isDottedPart c = true) :
      ∀ c ∈ mark ++ word, isOpening c = true := by
    intro c member
    rcases List.mem_append.mp member with inMark | inWord
    · exact (marks c inMark).1
    · simp [isOpening, words c inWord]
  obtain ⟨fronts, backs⟩ :=
    append_inj_of_run (opening marks words) (opening marks' words') ends ends' same
  have noPart {mark : List Char}
      (marks : ∀ c ∈ mark, isOpening c = true ∧ Name.isDottedPart c = false) :
      ∀ c ∈ mark, (!Name.isDottedPart c) = true := by
    intro c member
    simp [(marks c member).2]
  have part {word : List Char} (words : ∀ c ∈ word, Name.isDottedPart c = true) :
      ∀ c ∈ word.head?, (!Name.isDottedPart c) = false := by
    intro c member
    simp [words c (List.mem_of_mem_head? member)]
  obtain ⟨sameMark, sameWord⟩ :=
    append_inj_of_run (noPart marks) (noPart marks') (part words) (part words') fronts
  exact ⟨sameMark, sameWord, backs⟩

/-- The mark, the word and the rest of a text can be told from each other. -/
theorem text_parts_inj (depth : Nat) {left right : ErasedType} {rest rest' : List Char}
    (leftLegible : left.Legible) (rightLegible : right.Legible)
    (ends : Ends rest) (ends' : Ends rest')
    (same : left.text depth ++ rest = right.text depth ++ rest') :
    left.mark = right.mark ∧ left.word = right.word ∧
      left.body depth ++ rest = right.body depth ++ rest' := by
  rw [text, text, List.append_assoc (left.mark ++ _), List.append_assoc (right.mark ++ _)] at same
  obtain ⟨marks, words, bodies⟩ :=
    parts_inj left.isOpening_of_mem_mark right.isOpening_of_mem_mark
      (isDottedPart_of_mem_word leftLegible) (isDottedPart_of_mem_word rightLegible)
      (ends_body_append depth left ends) (ends_body_append depth right ends') same
  exact ⟨marks, String.toList_inj.mp words, bodies⟩

/-- A text that starts with a word and no mark has it for the word of its annotation. -/
theorem parts_of_text_append (depth : Nat) {said : ErasedType} {word : String}
    {rest more : List Char} (legible : said.Legible) (ends : Ends rest)
    (parts : word.toList.all Name.isDottedPart = true) (ends' : Ends more)
    (same : said.text depth ++ rest = word.toList ++ more) :
    said.mark = [] ∧ said.word = word ∧ said.body depth ++ rest = more := by
  rw [text, List.append_assoc (said.mark ++ _), ← List.nil_append word.toList] at same
  obtain ⟨marks, words, bodies⟩ :=
    parts_inj said.isOpening_of_mem_mark (by simp)
      (isDottedPart_of_mem_word legible) (List.all_eq_true.mp parts)
      (ends_body_append depth said ends) ends' same
  exact ⟨marks, String.toList_inj.mp words, bodies⟩

theorem form_eq_formOf (depth : Nat) {said : ErasedType} (legible : said.Legible)
    (rest : List Char) :
    said.form = formOf said.word (said.body depth ++ rest).head? := by
  cases said with
  | plain type => cases type <;> rfl
  | named nullable path =>
      rw [Legible] at legible
      rw [word, formOf, if_pos legible.2]
      rfl
  | array nullable item =>
      rw [word, formOf, if_neg (by decide), if_pos rfl]
      rfl
  | union nullable alternatives => cases alternatives <;> rfl
  | object nullable fields => cases fields <;> rfl
  | function nullable parameters result =>
      rw [word, formOf, if_neg (by decide), if_neg (by decide), if_pos rfl]
      rfl

/-! ## Reading an annotation back -/

theorem plainType_eq {left right : PlainType} (words : left.word = right.word) : left = right := by
  revert words
  cases left <;> cases right <;> decide

theorem bang_inj {left right : Bool}
    (marks : (if left then [] else ['!']) = if right then [] else ['!']) : left = right := by
  cases left <;> cases right <;> simp_all

theorem question_inj {left right : Bool}
    (marks : (if left then ['?'] else []) = if right then ['?'] else []) : left = right := by
  cases left <;> cases right <;> simp_all

/-- The words that stand for no type are the words of no annotation. -/
theorem word_ne {said : ErasedType} (legible : said.Legible) {word : String}
    (reserved : word ∈ ["undefined", "void"]) : said.word ≠ word := by
  have simple : '.' ∉ word.toList := by
    revert reserved
    revert word
    decide
  cases said with
  | plain type =>
      rintro rfl
      revert reserved
      cases type <;> decide
  | named nullable path =>
      rintro rfl
      rw [Legible] at legible
      exact simple legible.2
  | array nullable item => rintro rfl; simp [ErasedType.word] at reserved
  | union nullable alternatives => rintro rfl; simp [ErasedType.word] at reserved
  | object nullable fields => rintro rfl; simp [ErasedType.word] at reserved
  | function nullable parameters result => rintro rfl; simp [ErasedType.word] at reserved

theorem ends_moreAlternatives (depth : Nat) (alternatives : List ErasedType) (rest : List Char) :
    Ends (moreAlternatives depth alternatives ++ rest) := by
  cases alternatives with
  | nil => exact ends_cons (by decide) rest
  | cons next more => exact ends_cons (by decide) _

theorem ends_moreFields (depth : Nat) (fields : List Field) (rest : List Char) :
    Ends (moreFields depth fields ++ rest) := by
  cases fields with
  | nil => exact ends_cons (by decide) _
  | cons next more => exact ends_cons (by decide) _

theorem ends_undefinedMark (rest : List Char) : Ends (undefinedMark ++ rest) :=
  ends_cons (by decide) _

/-- A bracket in front is that of a union which may not be null. -/
theorem form_of_parenthesis (depth : Nat) {said : ErasedType} {rest more : List Char}
    (legible : said.Legible) (ends : Ends rest)
    (same : said.text depth ++ rest = '(' :: more) :
    said.form = .union ∧ said.body depth ++ rest = '(' :: more := by
  have noWord : said.text depth ++ rest = "".toList ++ '(' :: more := same
  obtain ⟨-, word, body⟩ :=
    parts_of_text_append depth legible ends (by simp) (ends_cons (by decide) more) noWord
  refine ⟨?_, body⟩
  rw [form_eq_formOf depth legible rest, word, body]
  rfl

theorem text_append_ne_close (depth : Nat) {said : ErasedType} {rest more : List Char}
    (legible : said.Legible) (ends : Ends rest) :
    said.text depth ++ rest ≠ ')' :: more := by
  intro same
  have noWord : said.text depth ++ rest = "".toList ++ ')' :: more := same
  obtain ⟨-, word, body⟩ :=
    parts_of_text_append depth legible ends (by simp) (ends_cons (by decide) more) noWord
  have plain : said.form = .plain := by
    rw [form_eq_formOf depth legible rest, word, body]
    rfl
  match said, plain with
  | .plain .any, _ => exact nomatch List.head_eq_of_cons_eq body
  | .plain .string, _ | .plain .number, _ | .plain .boolean, _ | .plain .binary, _
  | .plain .object, _ => exact absurd word (by decide)

/-- No alternative is the word that marks a field or parameter as optional. -/
theorem moreAlternatives_append_ne (depth : Nat) {alternatives : List ErasedType}
    {rest more : List Char} (legible : LegibleAlternatives alternatives) (ends : Ends more) :
    moreAlternatives depth alternatives ++ rest ≠ undefinedMark ++ more := by
  intro same
  cases alternatives with
  | nil => exact nomatch List.head_eq_of_cons_eq same
  | cons next later =>
      rw [LegibleAlternatives] at legible
      rw [moreAlternatives_cons] at same
      have text : next.text depth ++ (moreAlternatives depth later ++ rest) =
          "undefined".toList ++ more := by
        simpa [undefinedMark] using same
      obtain ⟨-, word, -⟩ := parts_of_text_append depth legible.1
        (ends_moreAlternatives depth later rest) (by decide) ends text
      exact word_ne legible.1 (by decide) word

/-- What stands behind a parameter. -/
def Closes (rest : List Char) : Prop :=
  ∀ c ∈ rest.head?, c = ',' ∨ c = ')'

theorem Closes.ends {rest : List Char} (closes : Closes rest) : Ends rest := by
  intro c member
  rcases closes c member with rfl | rfl <;> decide

theorem Closes.ends_optional {rest : List Char} (closes : Closes rest) (optional : Bool) :
    Ends ((if optional then undefinedMark else []) ++ rest) := by
  cases optional with
  | false => exact closes.ends
  | true => exact ends_undefinedMark rest

theorem closes_moreParameters (depth : Nat) (parameters : List Parameter)
    (result : Option ErasedType) (rest : List Char) :
    Closes (moreParameters depth parameters ++ (resultText depth result ++ rest)) := by
  intro c member
  cases parameters with
  | nil => cases result <;> cases member <;> exact .inr rfl
  | cons next more => cases next; cases member; exact .inl rfl

theorem function_append_ne (depth : Nat) {nullable nullable' : Bool} {first : Parameter}
    {more : List Parameter} {result result' : Option ErasedType} {rest rest' : List Char}
    (legible : LegibleParameter first) :
    (function nullable (first :: more) result).body depth ++ rest ≠
      (function nullable' [] result').body depth ++ rest' := by
  obtain ⟨type, optional⟩ := first
  rw [LegibleParameter] at legible
  intro same
  simp only [body, parameterText_eq, List.cons_append, List.append_assoc, List.cons.injEq,
    true_and] at same
  have later := (closes_moreParameters depth more result rest).ends_optional optional
  cases result' with
  | none => exact text_append_ne_close depth legible later same
  | some type' => exact text_append_ne_close depth legible later same

theorem resultText_append_ne (depth : Nat) {type : ErasedType} {rest rest' : List Char}
    (legible : LegibleResult (some type)) (ends : Ends rest) (ends' : Ends rest') :
    resultText depth (some type) ++ rest ≠ resultText depth none ++ rest' := by
  rw [LegibleResult] at legible
  intro same
  rw [resultText_some, resultText, List.append_assoc, List.append_assoc,
    List.append_cancel_left_eq] at same
  obtain ⟨-, word, -⟩ := parts_of_text_append depth legible ends (by decide) ends' same
  exact word_ne legible (by decide) word

mutual

theorem text_append_inj (depth : Nat) (left right : ErasedType) {rest rest' : List Char}
    (leftLegible : left.Legible) (rightLegible : right.Legible)
    (ends : Ends rest) (ends' : Ends rest')
    (same : left.text depth ++ rest = right.text depth ++ rest') :
    left = right ∧ rest = rest' := by
  obtain ⟨marks, words, bodies⟩ :=
    text_parts_inj depth leftLegible rightLegible ends ends' same
  have forms : left.form = right.form := by
    rw [form_eq_formOf depth leftLegible rest, form_eq_formOf depth rightLegible rest', words,
      bodies]
  match left, right, forms with
  | .plain type, .plain type', _ =>
      cases plainType_eq words
      exact ⟨rfl, List.append_cancel_left bodies⟩
  | .named nullable path, .named nullable' path', _ =>
      cases bang_inj marks
      cases words
      exact ⟨rfl, List.append_cancel_left bodies⟩
  | .array nullable item, .array nullable' item', _ =>
      cases bang_inj marks
      simp only [body_array, List.cons_append, List.append_assoc, List.nil_append,
        List.cons.injEq, true_and] at bodies
      rw [Legible] at leftLegible rightLegible
      obtain ⟨items, closed⟩ := text_append_inj depth item item' leftLegible rightLegible
        (ends_cons (by decide) rest) (ends_cons (by decide) rest') bodies
      exact ⟨by rw [items], List.tail_eq_of_cons_eq closed⟩
  | .union nullable [], .union _ _, _ =>
      rw [Legible] at leftLegible
      exact absurd rfl leftLegible.1
  | .union _ _, .union _ [], _ =>
      rw [Legible] at rightLegible
      exact absurd rfl rightLegible.1
  | .union nullable (first :: more), .union nullable' (first' :: more'), _ =>
      cases question_inj marks
      simp only [body_union_cons, List.cons_append, List.append_assoc, List.cons.injEq,
        true_and] at bodies
      rw [Legible, LegibleAlternatives] at leftLegible rightLegible
      obtain ⟨firsts, later⟩ := text_append_inj depth first first' leftLegible.2.1
        rightLegible.2.1 (ends_moreAlternatives depth more rest)
        (ends_moreAlternatives depth more' rest') bodies
      obtain ⟨alternatives, closed⟩ := moreAlternatives_append_inj depth more more'
        leftLegible.2.2 rightLegible.2.2 later
      exact ⟨by rw [firsts, alternatives], closed⟩
  | .object nullable [], .object _ _, _ =>
      rw [Legible] at leftLegible
      exact absurd rfl leftLegible.1
  | .object _ _, .object _ [], _ =>
      rw [Legible] at rightLegible
      exact absurd rfl rightLegible.1
  | .object nullable (first :: more), .object nullable' (first' :: more'), _ =>
      cases question_inj marks
      simp only [body, List.cons_append, List.append_assoc, List.cons.injEq, true_and] at bodies
      rw [Legible, LegibleFields] at leftLegible rightLegible
      obtain ⟨firsts, later⟩ := fieldText_append_inj (depth + 1) first first' leftLegible.2.1
        rightLegible.2.1 (ends_moreFields depth more rest) (ends_moreFields depth more' rest')
        bodies
      obtain ⟨fields, closed⟩ := moreFields_append_inj depth more more' leftLegible.2.2
        rightLegible.2.2 later
      exact ⟨by rw [firsts, fields], closed⟩
  | .function nullable [] result, .function nullable' [] result', _ =>
      cases question_inj marks
      simp only [body, List.cons_append, List.cons.injEq, true_and] at bodies
      rw [Legible] at leftLegible rightLegible
      obtain ⟨results, later⟩ := resultText_append_inj depth result result' leftLegible.2
        rightLegible.2 ends ends' bodies
      exact ⟨by rw [results], later⟩
  | .function nullable (first :: more) result, .function nullable' (first' :: more') result', _ =>
      cases question_inj marks
      simp only [body, List.cons_append, List.append_assoc, List.cons.injEq, true_and] at bodies
      rw [Legible, LegibleParameters] at leftLegible rightLegible
      obtain ⟨firsts, later⟩ := parameterText_append_inj depth first first' leftLegible.1.1
        rightLegible.1.1 (closes_moreParameters depth more result rest)
        (closes_moreParameters depth more' result' rest') bodies
      obtain ⟨parameters, finish⟩ := moreParameters_append_inj depth more more'
        leftLegible.1.2 rightLegible.1.2 later
      obtain ⟨results, closed⟩ := resultText_append_inj depth result result' leftLegible.2
        rightLegible.2 ends ends' finish
      exact ⟨by rw [firsts, parameters, results], closed⟩
  | .function nullable [] result, .function nullable' (first' :: more') result', _ =>
      rw [Legible, LegibleParameters] at rightLegible
      exact absurd bodies.symm (function_append_ne depth rightLegible.1.1)
  | .function nullable (first :: more) result, .function nullable' [] result', _ =>
      rw [Legible, LegibleParameters] at leftLegible
      exact absurd bodies (function_append_ne depth leftLegible.1.1)
termination_by structural left

theorem moreAlternatives_append_inj (depth : Nat) (left right : List ErasedType)
    {rest rest' : List Char} (leftLegible : LegibleAlternatives left)
    (rightLegible : LegibleAlternatives right)
    (same : moreAlternatives depth left ++ rest = moreAlternatives depth right ++ rest') :
    left = right ∧ rest = rest' :=
  match left, right with
  | [], [] => ⟨rfl, List.append_cancel_left same⟩
  | [], next' :: more' => nomatch List.head_eq_of_cons_eq same
  | next :: more, [] => nomatch List.head_eq_of_cons_eq same
  | next :: more, next' :: more' => by
      simp only [moreAlternatives_cons, List.cons_append, List.append_assoc, List.cons.injEq,
        true_and] at same
      rw [LegibleAlternatives] at leftLegible rightLegible
      obtain ⟨nexts, later⟩ := text_append_inj depth next next' leftLegible.1 rightLegible.1
        (ends_moreAlternatives depth more rest) (ends_moreAlternatives depth more' rest') same
      obtain ⟨alternatives, closed⟩ := moreAlternatives_append_inj depth more more'
        leftLegible.2 rightLegible.2 later
      exact ⟨by rw [nexts, alternatives], closed⟩
termination_by structural left

theorem fieldText_append_inj (depth : Nat) (left right : Field) {rest rest' : List Char}
    (leftLegible : LegibleField left) (rightLegible : LegibleField right)
    (ends : Ends rest) (ends' : Ends rest')
    (same : fieldText depth left ++ rest = fieldText depth right ++ rest') :
    left = right ∧ rest = rest' :=
  match left, right with
  | ⟨name, type, optional⟩, ⟨name', type', optional'⟩ => by
      rw [LegibleField] at leftLegible rightLegible
      simp only [fieldText_eq, List.append_assoc, List.append_cancel_left_eq] at same
      obtain ⟨names, types⟩ := append_inj_of_run leftLegible.1 rightLegible.1
        (by simp; decide) (by simp; decide) same
      cases String.toList_inj.mp names
      rw [List.append_cancel_left_eq] at types
      match optional, optional' with
      | false, false =>
          obtain ⟨same, later⟩ := text_append_inj depth type type' leftLegible.2 rightLegible.2
            ends ends' types
          exact ⟨by rw [same], later⟩
      | true, true =>
          simp only [↓reduceIte, List.cons_append, List.nil_append, List.append_assoc,
            List.cons.injEq, true_and] at types
          obtain ⟨same, later⟩ := text_append_inj depth type type' leftLegible.2 rightLegible.2
            (ends_undefinedMark _) (ends_undefinedMark _) types
          simp only [List.append_cancel_left_eq, List.cons.injEq, true_and] at later
          exact ⟨by rw [same], later⟩
      -- An optional field looks like a union whose last alternative is no type.
      | false, true =>
          obtain ⟨form, body⟩ := form_of_parenthesis depth leftLegible.2 ends types
          match type, form with
          | .union _ [], _ => exact absurd rfl leftLegible.2.1
          | .union nullable (first :: more), _ =>
              have legible := leftLegible.2
              rw [Legible, LegibleAlternatives] at legible
              rw [body_union_cons] at body
              simp only [List.cons_append, List.append_assoc, List.cons.injEq, true_and] at body
              obtain ⟨-, later⟩ := text_append_inj depth first type' legible.2.1 rightLegible.2
                (ends_moreAlternatives depth more rest) (ends_undefinedMark _) body
              exact absurd later (moreAlternatives_append_ne depth legible.2.2
                (ends_cons (by decide) _))
      | true, false =>
          obtain ⟨form, body⟩ := form_of_parenthesis depth rightLegible.2 ends' types.symm
          match type', form with
          | .union _ [], _ => exact absurd rfl rightLegible.2.1
          | .union nullable (first :: more), _ =>
              have legible := rightLegible.2
              rw [Legible, LegibleAlternatives] at legible
              rw [body_union_cons] at body
              simp only [List.cons_append, List.append_assoc, List.cons.injEq, true_and] at body
              obtain ⟨-, later⟩ := text_append_inj depth type first leftLegible.2 legible.2.1
                (ends_undefinedMark _) (ends_moreAlternatives depth more rest') body.symm
              exact absurd later.symm (moreAlternatives_append_ne depth legible.2.2
                (ends_cons (by decide) _))
termination_by structural left

theorem moreFields_append_inj (depth : Nat) (left right : List Field) {rest rest' : List Char}
    (leftLegible : LegibleFields left) (rightLegible : LegibleFields right)
    (same : moreFields depth left ++ rest = moreFields depth right ++ rest') :
    left = right ∧ rest = rest' :=
  match left, right with
  | [], [] => ⟨rfl, List.append_cancel_left same⟩
  | [], next' :: more' => nomatch List.head_eq_of_cons_eq same
  | next :: more, [] => nomatch List.head_eq_of_cons_eq same
  | next :: more, next' :: more' => by
      simp only [moreFields, List.cons_append, List.append_assoc, List.cons.injEq,
        true_and] at same
      rw [LegibleFields] at leftLegible rightLegible
      obtain ⟨nexts, later⟩ := fieldText_append_inj (depth + 1) next next' leftLegible.1
        rightLegible.1 (ends_moreFields depth more rest) (ends_moreFields depth more' rest') same
      obtain ⟨fields, closed⟩ := moreFields_append_inj depth more more' leftLegible.2
        rightLegible.2 later
      exact ⟨by rw [nexts, fields], closed⟩
termination_by structural left

theorem parameterText_append_inj (depth : Nat) (left right : Parameter) {rest rest' : List Char}
    (leftLegible : LegibleParameter left) (rightLegible : LegibleParameter right)
    (closes : Closes rest) (closes' : Closes rest')
    (same : parameterText depth left ++ rest = parameterText depth right ++ rest') :
    left = right ∧ rest = rest' :=
  match left, right with
  | ⟨type, optional⟩, ⟨type', optional'⟩ => by
      rw [LegibleParameter] at leftLegible rightLegible
      rw [parameterText_eq, parameterText_eq, List.append_assoc, List.append_assoc] at same
      obtain ⟨types, later⟩ := text_append_inj depth type type' leftLegible rightLegible
        (closes.ends_optional optional) (closes'.ends_optional optional') same
      match optional, optional' with
      | false, false => exact ⟨by rw [types], later⟩
      | true, true => exact ⟨by rw [types], List.append_cancel_left later⟩
      | false, true =>
          have bar := closes '|' (by rw [show rest = _ from later]; rfl)
          exact absurd bar (by decide)
      | true, false =>
          have bar := closes' '|' (by rw [← show _ = rest' from later]; rfl)
          exact absurd bar (by decide)
termination_by structural left

theorem moreParameters_append_inj (depth : Nat) (left right : List Parameter)
    {result result' : Option ErasedType} {rest rest' : List Char}
    (leftLegible : LegibleParameters left) (rightLegible : LegibleParameters right)
    (same : moreParameters depth left ++ (resultText depth result ++ rest) =
      moreParameters depth right ++ (resultText depth result' ++ rest')) :
    left = right ∧ resultText depth result ++ rest = resultText depth result' ++ rest' :=
  match left, right with
  | [], [] => ⟨rfl, same⟩
  | [], next' :: more' => by cases result <;> exact nomatch List.head_eq_of_cons_eq same
  | next :: more, [] => by cases result' <;> exact nomatch List.head_eq_of_cons_eq same
  | next :: more, next' :: more' => by
      simp only [moreParameters, List.cons_append, List.nil_append, List.append_assoc,
        List.cons.injEq, true_and] at same
      rw [LegibleParameters] at leftLegible rightLegible
      obtain ⟨nexts, later⟩ := parameterText_append_inj depth next next' leftLegible.1
        rightLegible.1 (closes_moreParameters depth more result rest)
        (closes_moreParameters depth more' result' rest') same
      obtain ⟨parameters, finish⟩ := moreParameters_append_inj depth more more'
        leftLegible.2 rightLegible.2 later
      exact ⟨by rw [nexts, parameters], finish⟩
termination_by structural left

theorem resultText_append_inj (depth : Nat) (left right : Option ErasedType)
    {rest rest' : List Char} (leftLegible : LegibleResult left)
    (rightLegible : LegibleResult right) (ends : Ends rest) (ends' : Ends rest')
    (same : resultText depth left ++ rest = resultText depth right ++ rest') :
    left = right ∧ rest = rest' :=
  match left, right with
  | none, none => ⟨rfl, List.append_cancel_left same⟩
  | none, some type' => absurd same.symm (resultText_append_ne depth rightLegible ends' ends)
  | some type, none => absurd same (resultText_append_ne depth leftLegible ends ends')
  | some type, some type' => by
      rw [LegibleResult] at leftLegible rightLegible
      simp only [resultText_some, List.append_assoc, List.append_cancel_left_eq] at same
      obtain ⟨types, later⟩ := text_append_inj depth type type' leftLegible rightLegible
        ends ends' same
      exact ⟨by rw [types], later⟩
termination_by structural left

end

theorem text_inj (depth : Nat) {left right : ErasedType} (leftLegible : left.Legible)
    (rightLegible : right.Legible) (same : left.text depth = right.text depth) : left = right :=
  (text_append_inj depth left right leftLegible rightLegible ends_nil ends_nil (by rw [same])).1

end Externs.ErasedType

/-! ## Types with the same annotation -/

namespace Externs

open ErasedType (Legible LegibleAlternatives LegibleField LegibleFields LegibleParameter
  LegibleParameters LegibleResult)

mutual

theorem TypeUse.legible_erased {scope : Scope} (named : scope.isNamed = true) (type : TypeUse)
    (spelled : type.all TypeKind.isSpelled = true) : (type.erased scope).Legible :=
  match type with
  | ⟨kind, nullable⟩ => by
      rw [TypeUse.all] at spelled
      rw [TypeUse.erased]
      exact kind.legible_erased named nullable spelled

theorem TypeKind.legible_erased {scope : Scope} (named : scope.isNamed = true) (nullable : Bool)
    (kind : TypeKind) (spelled : kind.all TypeKind.isSpelled = true) :
    (kind.erased scope nullable).Legible :=
  match kind with
  | .string | .integer | .number | .boolean | .any | .binary | .object => trivial
  | .reference name => by
      rw [TypeKind.all, TypeKind.isSpelled, Bool.and_eq_true] at spelled
      rw [TypeKind.erased, Legible]
      exact ⟨scope.isDottedPart_of_mem_qualify named spelled.1, scope.dot_mem_qualify name⟩
  | .array item => by
      rw [TypeKind.all, Bool.and_eq_true] at spelled
      rw [TypeKind.erased, Legible]
      exact item.legible_erased named spelled.2
  | .choices [] => by
      exact absurd spelled (by decide)
  | .choices (first :: rest) => by
      rw [TypeKind.all, Bool.and_eq_true, allChoices, Bool.and_eq_true] at spelled
      rw [TypeKind.erased, Legible, erasedChoices, LegibleAlternatives]
      exact ⟨List.cons_ne_nil _ _, first.legible_erased named spelled.2.1,
        legible_erasedChoices named rest spelled.2.2⟩
  | .inlineObject [] => by
      exact absurd spelled (by decide)
  | .inlineObject (first :: rest) => by
      rw [TypeKind.all, Bool.and_eq_true, TypeKind.isSpelled, Bool.and_eq_true] at spelled
      rw [TypeKind.erased, Legible]
      refine ⟨?_, legible_erasedFields named (first :: rest) ?_ spelled.2⟩
      · obtain ⟨name, type, optional, description, jsexterns⟩ := first
        exact List.cons_ne_nil _ _
      · exact List.all_eq_true.mp spelled.1.1
  | .function function => by
      rw [TypeKind.all, Bool.and_eq_true] at spelled
      rw [TypeKind.erased]
      exact function.legible_erased named nullable spelled.2

theorem Function.legible_erased {scope : Scope} (named : scope.isNamed = true) (nullable : Bool)
    (function : Function) (spelled : function.all TypeKind.isSpelled = true) :
    (function.erased scope nullable).Legible :=
  match function with
  | ⟨_, parameters, returns, _, _⟩ => by
      rw [Function.all, Bool.and_eq_true] at spelled
      rw [Function.erased, Legible]
      exact ⟨legible_erasedParameters named parameters spelled.1,
        legible_erasedReturn named returns spelled.2⟩

theorem legible_erasedChoices {scope : Scope} (named : scope.isNamed = true)
    (choices : List TypeUse) (spelled : allChoices TypeKind.isSpelled choices = true) :
    LegibleAlternatives (erasedChoices scope choices) :=
  match choices with
  | [] => trivial
  | first :: rest => by
      rw [allChoices, Bool.and_eq_true] at spelled
      rw [erasedChoices, LegibleAlternatives]
      exact ⟨first.legible_erased named spelled.1, legible_erasedChoices named rest spelled.2⟩

theorem legible_erasedFields {scope : Scope} (named : scope.isNamed = true)
    (properties : List Property)
    (names : ∀ property ∈ properties, Name.isDotted property.name = true)
    (spelled : allProperties TypeKind.isSpelled properties = true) :
    LegibleFields (erasedFields scope properties) :=
  match properties with
  | [] => trivial
  | ⟨name, type, optional, description, jsexterns⟩ :: rest => by
      rw [allProperties, Bool.and_eq_true] at spelled
      rw [erasedFields, LegibleFields, LegibleField]
      obtain ⟨dotted, later⟩ := List.forall_mem_cons.mp names
      exact ⟨⟨Name.isDottedPart_of_isDotted dotted, type.legible_erased named spelled.1⟩,
        legible_erasedFields named rest later spelled.2⟩

theorem legible_erasedParameters {scope : Scope} (named : scope.isNamed = true)
    (parameters : List Property)
    (spelled : allProperties TypeKind.isSpelled parameters = true) :
    LegibleParameters (erasedParameters scope parameters) :=
  match parameters with
  | [] => trivial
  | ⟨_, type, optional, _, _⟩ :: rest => by
      rw [allProperties, Bool.and_eq_true] at spelled
      rw [erasedParameters, LegibleParameters, LegibleParameter]
      exact ⟨type.legible_erased named spelled.1, legible_erasedParameters named rest spelled.2⟩

theorem legible_erasedReturn {scope : Scope} (named : scope.isNamed = true)
    (returns : Option Return) (spelled : allReturn TypeKind.isSpelled returns = true) :
    LegibleResult (erasedReturn scope returns) :=
  match returns with
  | none => trivial
  | some ⟨type, _⟩ => by
      rw [allReturn] at spelled
      rw [erasedReturn, LegibleResult]
      exact type.legible_erased named spelled

end

/-- Both types have an annotation, and it is the same exactly if it says the same of
both. -/
theorem TypeUse.toText_expression_eq_iff {scope : Scope} (named : scope.isNamed = true)
    (left right : TypeUse) (leftSpelled : left.all TypeKind.isSpelled = true)
    (rightSpelled : right.all TypeKind.isSpelled = true) (path path' : String) :
    ∃ expression expression', left.expression scope path = .ok expression ∧
      right.expression scope path' = .ok expression' ∧
      (expression.toText = expression'.toText ↔ left.erased scope = right.erased scope) := by
  obtain ⟨expression, success, same⟩ := left.chars_expression scope path leftSpelled
  obtain ⟨expression', success', same'⟩ := right.chars_expression scope path' rightSpelled
  refine ⟨expression, expression', success, success', ?_⟩
  rw [← String.toList_inj, TypeExpr.toList_toText, TypeExpr.toList_toText, same, same']
  constructor
  · exact ErasedType.text_inj 0 (left.legible_erased named leftSpelled)
      (right.legible_erased named rightSpelled)
  · intro erased
    rw [erased]

/-- An optional text and a union of one text do not have the same annotation. -/
theorem TypeUse.toText_expression_optional_union :
    ∃ expression expression',
      (TypeUse.mk (.inlineObject [⟨"a", ⟨.string, false⟩, true, none, none⟩]) true).expression
        ⟨"chrome", "tabs"⟩ "Tab" = .ok expression ∧
      (TypeUse.mk (.inlineObject [⟨"a", ⟨.choices [⟨.string, true⟩], false⟩, false, none, none⟩])
        true).expression ⟨"chrome", "tabs"⟩ "Tab" = .ok expression' ∧
      (expression.toText = expression'.toText ↔
        (TypeUse.mk (.inlineObject [⟨"a", ⟨.string, false⟩, true, none, none⟩]) true).erased
            ⟨"chrome", "tabs"⟩ =
          (TypeUse.mk (.inlineObject
            [⟨"a", ⟨.choices [⟨.string, true⟩], false⟩, false, none, none⟩]) true).erased
            ⟨"chrome", "tabs"⟩) :=
  TypeUse.toText_expression_eq_iff (by decide) _ _ (by decide) (by decide) _ _

end Externs
