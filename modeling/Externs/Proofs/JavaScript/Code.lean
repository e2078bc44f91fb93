import Externs.Proofs.Layout.CommentEnd
import Mathlib.Data.List.DropRight
import Mathlib.Data.List.Forall2

/-!
# The code in a script

A lexer that takes the comments out of JavaScript, and what it leaves of a text that
is made of lines: statements, string literals, line comments and doc comments.
-/

set_option autoImplicit false

namespace Externs.JavaScript

/-! ## Regions -/

def isLineTerminator (c : Char) : Bool :=
  c == '\n' || c == '\r' || c == '\u2028' || c == '\u2029'

inductive Region where
  | code
  /-- After a slash that may open a comment. -/
  | slash
  | string
  /-- After a backslash in a string. -/
  | escape
  | lineComment
  | blockComment
  /-- After a star that may close a block comment. -/
  | star
  deriving DecidableEq, Repr

/-- The region after a character, and what is kept. A string must end in its line. -/
def Region.step : Region → Char → Option (Region × List Char)
  | .code, c =>
      if c = '/' then some (.slash, [])
      else if c = '\'' then some (.string, [c])
      else some (.code, [c])
  | .slash, c =>
      if c = '/' then some (.lineComment, [])
      else if c = '*' then some (.blockComment, [])
      else if c = '\'' then some (.string, ['/', c])
      else some (.code, ['/', c])
  | .string, c =>
      if isLineTerminator c then none
      else if c = '\\' then some (.escape, [c])
      else if c = '\'' then some (.code, [c])
      else some (.string, [c])
  | .escape, c => if isLineTerminator c then none else some (.string, [c])
  | .lineComment, c => if isLineTerminator c then some (.code, [c]) else some (.lineComment, [])
  | .blockComment, c => if c = '*' then some (.star, []) else some (.blockComment, [])
  | .star, c =>
      if c = '/' then some (.code, [])
      else if c = '*' then some (.star, [])
      else some (.blockComment, [])

/-- The region after a text, and what is kept of it. -/
def Region.run : Region → List Char → Option (Region × List Char)
  | region, [] => some (region, [])
  | region, c :: rest =>
      (region.step c).bind fun first =>
        (first.1.run rest).map fun later => (later.1, first.2 ++ later.2)

/-- A text without its comments. Strings and block comments must be closed. -/
def withoutComments (text : String) : Option (List Char) :=
  match Region.code.run text.toList with
  | some (.code, kept) | some (.lineComment, kept) => some kept
  | some (.slash, kept) => some (kept ++ ['/'])
  | _ => none

/-- The lines of a text without its comments, apart from those that are blank. -/
def codeLines (text : String) : Option (List String) :=
  (withoutComments text).map fun kept =>
    ((kept.splitOnP isLineTerminator).map String.ofList).filter fun line => !Text.allBlank line

/-! ## Runs -/

/-- The lexer gets over a text from one region to another. -/
def Runs (start : Region) (text : List Char) (stop : Region) (kept : List Char) : Prop :=
  start.run text = some (stop, kept)

theorem Runs.nil (region : Region) : Runs region [] region [] :=
  rfl

section

variable {start next stop : Region} {c : Char} {rest kept more : List Char}

theorem Runs.cons (first : start.step c = some (next, kept)) (later : Runs next rest stop more) :
    Runs start (c :: rest) stop (kept ++ more) := by
  rw [Runs, Region.run, first, Option.bind_some, later]
  rfl

theorem Runs.drop (first : start.step c = some (next, [])) (later : Runs next rest stop more) :
    Runs start (c :: rest) stop more :=
  .cons first later

theorem Runs.keep (first : start.step c = some (next, [c])) (later : Runs next rest stop more) :
    Runs start (c :: rest) stop (c :: more) :=
  .cons first later

end

theorem Runs.append {start middle stop : Region} {first second kept more : List Char}
    (one : Runs start first middle kept) (two : Runs middle second stop more) :
    Runs start (first ++ second) stop (kept ++ more) := by
  induction first generalizing start kept with
  | nil =>
      obtain ⟨rfl, rfl⟩ := Prod.mk.inj (Option.some.inj one)
      exact two
  | cons c rest ih =>
      obtain ⟨⟨next, here⟩, taken, later⟩ := Option.bind_eq_some_iff.mp one
      obtain ⟨⟨last, there⟩, ran, ended⟩ := Option.map_eq_some_iff.mp later
      obtain ⟨rfl, rfl⟩ := Prod.mk.inj ended
      rw [List.append_assoc]
      exact .cons taken (ih ran)

theorem runs_code {text : List Char} (plain : ∀ c ∈ text, c ≠ '/' ∧ c ≠ '\'') :
    Runs .code text .code text := by
  induction text with
  | nil => exact .nil .code
  | cons c rest ih =>
      obtain ⟨⟨noSlash, noQuote⟩, others⟩ := List.forall_mem_cons.mp plain
      exact .keep (by rw [Region.step, if_neg noSlash, if_neg noQuote]) (ih others)

theorem runs_lineComment {text : List Char} (unbroken : ∀ c ∈ text, isLineTerminator c = false) :
    Runs .lineComment text .lineComment [] := by
  induction text with
  | nil => exact .nil .lineComment
  | cons c rest ih =>
      obtain ⟨here, others⟩ := List.forall_mem_cons.mp unbroken
      exact .drop (by rw [Region.step, here]; rfl) (ih others)

/-- Text without the end of a comment stays in the comment. -/
theorem runs_blockComment {text : List Char} (unclosed : ¬ Layout.commentEnd <:+: text)
    {last : Char} (noStar : last ≠ '*') (noSlash : last ≠ '/') :
    Runs .blockComment (text ++ [last]) .blockComment [] := by
  suffices both : Runs .blockComment (text ++ [last]) .blockComment [] ∧
      (text.head? ≠ some '/' → Runs .star (text ++ [last]) .blockComment []) from both.1
  induction text with
  | nil =>
      refine ⟨.drop ?_ (.nil .blockComment), fun _ => .drop ?_ (.nil .blockComment)⟩
      · rw [Region.step, if_neg noStar]
      · rw [Region.step, if_neg noSlash, if_neg noStar]
  | cons c rest ih =>
      rw [List.infix_cons_iff, not_or] at unclosed
      obtain ⟨fromBlock, fromStar⟩ := ih unclosed.2
      by_cases star : c = '*'
      · -- the next character is no slash, so the star does not matter
        have next : rest.head? ≠ some '/' := by
          intro slash
          obtain ⟨more, rfl⟩ := List.head?_eq_some_iff.mp slash
          exact unclosed.1 (by rw [star]; exact ⟨more, rfl⟩)
        subst star
        exact ⟨.drop rfl (fromStar next), fun _ => .drop rfl (fromStar next)⟩
      · refine ⟨.drop (by rw [Region.step, if_neg star]) fromBlock, fun start => ?_⟩
        have other : c ≠ '/' := by simpa using start
        exact .drop (by rw [Region.step, if_neg other, if_neg star]) fromBlock

/-! ## Literals -/

/-- How a character is written in a literal. -/
def quotedChar (c : Char) : List Char :=
  if c = '\\' ∨ c = '\'' then ['\\', c] else [c]

/-- Quotes are protected after backslashes, and the backslashes that this puts in are not
protected again, so that one pass does both. -/
theorem protect_protect (text : List Char) :
    Enumeration.protect '\'' (Enumeration.protect '\\' text) = text.flatMap quotedChar := by
  rw [Enumeration.protect, Enumeration.protect, List.flatMap_assoc]
  congr 1
  funext c
  by_cases backslash : c = '\\'
  · rw [backslash]
    rfl
  · by_cases quote : c = '\''
    · rw [quote]
      rfl
    · simp [quotedChar, backslash, quote]

theorem toList_literal (value : String) :
    (Enumeration.literal value).toList = '\'' :: (value.toList.flatMap quotedChar ++ ['\'']) := by
  rw [Enumeration.literal, String.toList_ofList, protect_protect]
  rfl

theorem runs_quotedChar {c : Char} (unbroken : isLineTerminator c = false) :
    Runs .string (quotedChar c) .string (quotedChar c) := by
  by_cases backslash : c = '\\'
  · subst backslash
    rfl
  · by_cases quote : c = '\''
    · subst quote
      rfl
    · rw [quotedChar, if_neg (not_or.mpr ⟨backslash, quote⟩)]
      exact .keep (by simp [Region.step, unbroken, backslash, quote]) (.nil .string)

theorem runs_literal {value : String}
    (unbroken : ∀ c ∈ value.toList, isLineTerminator c = false) :
    Runs .code (Enumeration.literal value).toList .code (Enumeration.literal value).toList := by
  have body (text : List Char) (unbroken : ∀ c ∈ text, isLineTerminator c = false) :
      Runs .string (text.flatMap quotedChar) .string (text.flatMap quotedChar) := by
    induction text with
    | nil => exact .nil .string
    | cons c rest ih =>
        obtain ⟨here, others⟩ := List.forall_mem_cons.mp unbroken
        exact (runs_quotedChar here).append (ih others)
  rw [toList_literal]
  exact .keep rfl ((body value.toList unbroken).append (.keep rfl (.nil .code)))

/-! ## Lines -/

def unlines (lines : List String) : List Char :=
  lines.flatMap fun line => line.toList ++ ['\n']

theorem unlines_append (first second : List String) :
    unlines (first ++ second) = unlines first ++ unlines second :=
  List.flatMap_append

theorem unlines_singleton (line : String) : unlines [line] = line.toList ++ ['\n'] := by
  simp [unlines]

/-- Without their comments, lines are the statements and blank lines. -/
def Leaves (lines statements : List String) : Prop :=
  ∃ kept : List String,
    Runs .code (unlines lines) .code (unlines kept) ∧
      (∀ line ∈ kept, ∀ c ∈ line.toList, isLineTerminator c = false) ∧
      kept.filter (fun line => !Text.allBlank line) = statements

theorem Leaves.nil : Leaves [] [] :=
  ⟨[], .nil .code, by simp, rfl⟩

theorem Leaves.append {first second statements more : List String}
    (one : Leaves first statements) (two : Leaves second more) :
    Leaves (first ++ second) (statements ++ more) := by
  obtain ⟨kept, runs, unbroken, left⟩ := one
  obtain ⟨others, runsOn, unbrokenOn, leftOver⟩ := two
  refine ⟨kept ++ others, ?_, ?_, ?_⟩
  · rw [unlines_append, unlines_append]
    exact runs.append runsOn
  · intro line member
    rcases List.mem_append.mp member with member | member
    · exact unbroken line member
    · exact unbrokenOn line member
  · rw [List.filter_append, left, leftOver]

theorem leaves_nothing {lines : List String} (runs : Runs .code (unlines lines) .code ['\n']) :
    Leaves lines [] :=
  ⟨[""], runs, by simp, rfl⟩

theorem leaves_blank : Leaves [""] [] :=
  leaves_nothing rfl

theorem leaves_statement {line : String} (runs : Runs .code line.toList .code line.toList)
    (unbroken : ∀ c ∈ line.toList, isLineTerminator c = false)
    (shown : Text.allBlank line = false) : Leaves [line] [line] := by
  refine ⟨[line], ?_, ?_, ?_⟩
  · rw [unlines_singleton]
    exact runs.append rfl
  · simpa using unbroken
  · simp [shown]

theorem leaves_lineComment {line : String} {text : List Char}
    (made : line.toList = '/' :: '/' :: text)
    (unbroken : ∀ c ∈ text, isLineTerminator c = false) : Leaves [line] [] := by
  apply leaves_nothing
  rw [unlines_singleton, made]
  exact .drop rfl (.drop rfl ((runs_lineComment unbroken).append rfl))

theorem leaves_blockComment {line : String} {text : List Char}
    (made : line.toList = '/' :: '*' :: (text ++ [' '] ++ ['*', '/']))
    (unclosed : ¬ Layout.commentEnd <:+: text) : Leaves [line] [] := by
  apply leaves_nothing
  have inside := runs_blockComment unclosed (show ' ' ≠ '*' by decide) (by decide)
  have closed : Runs .blockComment ['*', '/'] .code [] := rfl
  rw [unlines_singleton, made]
  exact .drop rfl (.drop rfl ((inside.append closed).append rfl))

theorem runs_blockComment_unlines {lines : List String}
    (unclosed : ∀ line ∈ lines, Unclosed line) :
    Runs .blockComment (unlines lines) .blockComment [] := by
  induction lines with
  | nil => exact .nil .blockComment
  | cons line rest ih =>
      obtain ⟨here, others⟩ := List.forall_mem_cons.mp unclosed
      exact (runs_blockComment here (by decide) (by decide)).append (ih others)

theorem leaves_docComment {lines : List String} (unclosed : ∀ line ∈ lines, Unclosed line) :
    Leaves (["/**"] ++ lines ++ [" */"]) [] := by
  apply leaves_nothing
  have opened : Runs .code (unlines ["/**"]) .blockComment [] := rfl
  have closed : Runs .blockComment (unlines [" */"]) .code ['\n'] := rfl
  rw [unlines_append, unlines_append]
  exact (opened.append (runs_blockComment_unlines unclosed)).append closed

theorem codeLines_of_leaves {text : String} {lines statements : List String}
    (leaves : Leaves lines statements) (made : text.toList = unlines lines) :
    codeLines text = some statements := by
  obtain ⟨kept, runs, unbroken, left⟩ := leaves
  have split : (unlines kept).splitOnP isLineTerminator = kept.map String.toList ++ [[]] := by
    clear runs left
    induction kept with
    | nil => rfl
    | cons line rest ih =>
        obtain ⟨here, others⟩ := List.forall_mem_cons.mp unbroken
        have first := List.splitOnP_append_cons_of_forall_mem here '\n' rfl (unlines rest)
        rw [unlines, List.flatMap_cons, List.append_assoc]
        exact first.trans (congrArg (line.toList :: ·) (ih others))
  have stripped : withoutComments text = some (unlines kept) := by
    rw [withoutComments, made, runs]
  have again : (kept.map String.toList ++ [[]]).map String.ofList = kept ++ [""] := by
    simp [Function.comp_def]
  rw [codeLines, stripped, Option.map_some, split, again, List.filter_append, left]
  exact congrArg some (List.append_nil statements)

/-! ## The end of a text -/

/-- What is left stays the same without the blank lines at the end. -/
structure LeavesTrimmed (lines statements : List String) : Prop where
  whole : Leaves lines statements
  trimmed : Leaves (lines.rdropWhile Text.allBlank) statements
  empty : lines.all Text.allBlank = true → statements = []

theorem LeavesTrimmed.nil : LeavesTrimmed [] [] :=
  ⟨.nil, .nil, fun _ => rfl⟩

theorem leavesTrimmed_blank : LeavesTrimmed [""] [] :=
  ⟨leaves_blank, .nil, fun _ => rfl⟩

theorem Leaves.trimmed {lines statements : List String} {last : String}
    (leaves : Leaves (lines ++ [last]) statements) (shown : Text.allBlank last = false) :
    LeavesTrimmed (lines ++ [last]) statements := by
  refine ⟨leaves, ?_, fun blank => ?_⟩
  · rwa [List.rdropWhile_concat_neg Text.allBlank lines last (by simp [shown])]
  · simp [shown] at blank

theorem rdropWhile_append_allBlank (first second : List String) :
    (first ++ second).rdropWhile Text.allBlank =
      if second.all Text.allBlank then first.rdropWhile Text.allBlank
      else first ++ second.rdropWhile Text.allBlank := by
  have gone : (second.reverse.dropWhile Text.allBlank).isEmpty = second.all Text.allBlank := by
    rw [Bool.eq_iff_iff]
    simp
  simp only [List.rdropWhile, List.reverse_append, List.dropWhile_append, gone]
  split <;> simp

theorem LeavesTrimmed.append {first second statements more : List String}
    (one : LeavesTrimmed first statements) (two : LeavesTrimmed second more) :
    LeavesTrimmed (first ++ second) (statements ++ more) := by
  refine ⟨one.whole.append two.whole, ?_, fun blank => ?_⟩
  · rw [rdropWhile_append_allBlank]
    split
    · next blank =>
        rw [two.empty blank, List.append_nil]
        exact one.trimmed
    · exact one.whole.append two.trimmed
  · rw [List.all_append, Bool.and_eq_true] at blank
    rw [one.empty blank.1, two.empty blank.2, List.append_nil]

theorem LeavesTrimmed.cons {line : String} {lines statements : List String}
    (first : LeavesTrimmed [line] []) (rest : LeavesTrimmed lines statements) :
    LeavesTrimmed (line :: lines) statements :=
  first.append rest

/-- Parts with a blank line after each. -/
theorem LeavesTrimmed.flatMap_blank {ι α : Type} {own : α → List String}
    {statements : ι → List String} {inputs : List ι} {parts : List α}
    (all : List.Forall₂ (fun input part => LeavesTrimmed (own part) (statements input))
      inputs parts) :
    LeavesTrimmed (parts.flatMap fun part => own part ++ [""]) (inputs.flatMap statements) := by
  induction all with
  | nil => exact .nil
  | cons first rest ih =>
      rw [List.flatMap_cons, List.flatMap_cons]
      have here := first.append leavesTrimmed_blank
      rw [List.append_nil] at here
      exact here.append ih

end Externs.JavaScript
