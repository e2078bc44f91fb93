import Externs.Layout.Script
import Externs.Proofs.Layout.Wrapped

/-!
# Programs on listings

A program writes into a listing through its operations. It can fail at any point, also
inside of blocks, and what follows a part can pass its failure on or go on after it. Each
block takes back its margin however its body ends, and nothing that is written changes the
lines before the last one.
-/

set_option autoImplicit false

namespace Externs.Layout

/-! ## Syntax and runs -/

/-- An operation that is no block. -/
inductive Edit where
  | append (line : String)
  | blank
  | inline (content : String)
  | comment (content : String)
  | commentInline (content : String) (hanging : Nat)
  | concat (other : Listing) (newLine : Bool)
  | trimEnd

def Edit.run (listing : Listing) : Edit → Listing
  | .append line => listing.append line
  | .blank => listing.blank
  | .inline content => listing.inline content
  | .comment content => listing.comment content
  | .commentInline content hanging => listing.commentInline content hanging
  | .concat other newLine =>
      if newLine then listing.appendAll other.lines else listing.splice other.lines
  | .trimEnd => listing.trimEnd

/-- A block whose body has ended. If the body has failed, there is no closing line. -/
def BlockKind.ended {ε : Type} (kind : BlockKind) (result : Except ε Unit) (inside : Listing) :
    Listing :=
  match result with
  | .ok () => kind.closed inside
  | .error _ => kind.left inside

inductive Program (ε : Type) where
  | finish (result : Except ε Unit)
  | edit (change : Edit)
  | block (kind : BlockKind) (body : Program ε)
  /-- What follows a part may depend on how it ended and on the lines so far. -/
  | andThen (first : Program ε) (next : Except ε Unit → List String → Program ε)

namespace Program

variable {ε : Type}

/-- How a program ends, and the listing that it leaves. A block ends as its body does. -/
def run : Program ε → Listing → Except ε Unit × Listing
  | .finish result, listing => (result, listing)
  | .edit change, listing => (.ok (), change.run listing)
  | .block kind body, listing =>
      let ended := body.run (kind.opened listing)
      (ended.1, kind.ended ended.1 ended.2)
  | .andThen first next, listing =>
      let ended := first.run listing
      (next ended.1 ended.2.lines).run ended.2

/-- Whether no part of a program takes lines away. -/
def Untrimmed : Program ε → Prop
  | .finish _ => True
  | .edit change => change ≠ .trimEnd
  | .block _ body => body.Untrimmed
  | .andThen first next => first.Untrimmed ∧ ∀ result lines, (next result lines).Untrimmed

end Program

/-! ## What stays -/

/-- The next lines are written in the same way. -/
structure Aligned (listing other : Listing) : Prop where
  margin : other.margin = listing.margin
  width : other.width = listing.width

theorem Aligned.trans {listing middle other : Listing} (first : Aligned listing middle)
    (second : Aligned middle other) : Aligned listing other :=
  ⟨second.margin.trans first.margin, second.width.trans first.width⟩

/-- All lines but the last one are in their places, and the last one may have got longer. -/
def Extends (old new : List String) : Prop :=
  ∀ before last, old = before ++ [last] → ∃ more later, new = before ++ (last ++ more) :: later

namespace Extends

theorem refl (lines : List String) : Extends lines lines := by
  intro before last ends
  exact ⟨"", [], by simpa using ends⟩

theorem append (old added : List String) : Extends old (old ++ added) := by
  intro before last ends
  exact ⟨"", added, by simp [ends]⟩

theorem trans {old middle new : List String} (first : Extends old middle)
    (second : Extends middle new) : Extends old new := by
  intro before last ends
  obtain ⟨more, later, rfl⟩ := first before last ends
  rcases List.eq_nil_or_concat later with rfl | ⟨between, final, rfl⟩
  · obtain ⟨further, rest, rfl⟩ := second before (last ++ more) rfl
    exact ⟨more ++ further, rest, by rw [String.append_assoc]⟩
  · obtain ⟨further, rest, rfl⟩ := second (before ++ (last ++ more) :: between) final (by simp)
    exact ⟨more, between ++ (final ++ further) :: rest, by simp⟩

/-- Text that goes on in the last line, or in a first one. -/
theorem of_start {old before added : List String} {start : String} (content : String)
    (found : old = before ++ [start] ∨ old = [] ∧ before = [] ∧ start = "") :
    Extends old (before ++ (start ++ content) :: added) := by
  intro earlier last ends
  obtain ⟨rfl, rfl⟩ := Listing.start_unique (.inl ends) found
  exact ⟨content, added, rfl⟩

end Extends

namespace Listing

variable (listing : Listing)

theorem extends_append (line : String) :
    Extends listing.lines (listing.append line).lines := by
  rw [lines_append]
  exact .append _ _

theorem extends_inline (content : String) :
    Extends listing.lines (listing.inline content).lines := by
  obtain ⟨before, start, found, -, extended⟩ := listing.exists_start_inline
  rw [extended]
  exact .of_start content found

theorem extends_appendAll (lines : List String) :
    Extends listing.lines (listing.appendAll lines).lines := by
  rw [lines_appendAll]
  exact .append _ _

theorem extends_splice (lines : List String) :
    Extends listing.lines (listing.splice lines).lines := by
  cases lines with
  | nil => exact .refl _
  | cons first rest =>
      exact (listing.extends_inline first).trans ((listing.inline first).extends_appendAll rest)

end Listing

/-! ## One operation -/

namespace Edit

variable (edit : Edit) (listing : Listing)

theorem aligned_run : Aligned listing (edit.run listing) := by
  cases edit with
  | concat other newLine => cases newLine <;> constructor <;> simp [run]
  | comment content =>
      exact ⟨listing.margin_comment content, listing.width_comment content⟩
  | commentInline content hanging =>
      exact ⟨listing.margin_commentInline content hanging,
        listing.width_commentInline content hanging⟩
  | _ => exact ⟨rfl, rfl⟩

theorem extends_run {edit : Edit} (keeps : edit ≠ .trimEnd) :
    Extends listing.lines (edit.run listing).lines := by
  cases edit with
  | append line => exact listing.extends_append line
  | blank => exact listing.extends_append ""
  | inline content => exact listing.extends_inline content
  | comment content =>
      simp only [run, listing.lines_comment]
      exact .append _ _
  | commentInline content hanging =>
      obtain ⟨before, start, found, written⟩ := listing.exists_lines_commentInline content hanging
      simp only [run, written]
      exact .of_start _ found
  | concat other newLine =>
      cases newLine with
      | false => exact listing.extends_splice other.lines
      | true => exact listing.extends_appendAll other.lines
  | trimEnd => exact absurd rfl keeps

end Edit

/-! ## One block -/

namespace BlockKind

variable (kind : BlockKind) (listing : Listing)

def closing : BlockKind → String
  | .doc => " */"
  | .braced => "\x7d"

theorem closed_eq : kind.closed listing = (kind.left listing).append kind.closing := by
  cases kind <;> rfl

theorem lines_left : (kind.left listing).lines = listing.lines := by
  cases kind <;> rfl

/-- Leaving a block takes back what opening it has put into the margin. -/
theorem aligned_left {listing inside : Listing} (aligned : Aligned (kind.opened listing) inside) :
    Aligned listing (kind.left inside) := by
  obtain ⟨margin, width⟩ := aligned
  cases kind with
  | doc =>
      refine ⟨?_, width⟩
      simp [left, Listing.leaveDoc, margin, opened, Listing.openDoc]
  | braced =>
      refine ⟨?_, width⟩
      simp [left, Listing.leaveBrace, margin, opened, Listing.openBrace]

theorem extends_opened : Extends listing.lines (kind.opened listing).lines := by
  cases kind with
  | doc => exact listing.extends_append "/**"
  | braced => exact listing.extends_inline "\x7b"

variable {ε : Type} (result : Except ε Unit)

theorem aligned_ended {listing inside : Listing}
    (aligned : Aligned (kind.opened listing) inside) :
    Aligned listing (kind.ended result inside) := by
  have left := kind.aligned_left aligned
  cases result with
  | ok value =>
      rw [ended, closed_eq]
      exact ⟨left.margin, left.width⟩
  | error error => exact left

theorem lines_ended {listing inside : Listing}
    (aligned : Aligned (kind.opened listing) inside) :
    (kind.ended result inside).lines =
      inside.lines ++
        match result with
        | .ok () => [listing.margin.apply kind.closing]
        | .error _ => [] := by
  cases result with
  | ok value =>
      rw [ended, closed_eq, Listing.lines_append, lines_left, (kind.aligned_left aligned).margin]
  | error error =>
      rw [ended, lines_left]
      exact (List.append_nil _).symm

end BlockKind

/-! ## Whole programs -/

namespace Program

variable {ε : Type} (program : Program ε) (listing : Listing)

theorem aligned_run : Aligned listing (program.run listing).2 := by
  induction program generalizing listing with
  | finish result => exact ⟨rfl, rfl⟩
  | edit change => exact change.aligned_run listing
  | block kind body ih => exact kind.aligned_ended _ (ih (kind.opened listing))
  | andThen first next ihFirst ihNext => exact (ihFirst listing).trans (ihNext _ _ _)

theorem lines_run_block (kind : BlockKind) (body : Program ε) :
    ((Program.block kind body).run listing).2.lines =
      (body.run (kind.opened listing)).2.lines ++
        match ((Program.block kind body).run listing).1 with
        | .ok () => [listing.margin.apply kind.closing]
        | .error _ => [] :=
  kind.lines_ended _ (aligned_run body (kind.opened listing))

/-- The indent that a brace has put into the margin is still there when it is taken back. -/
theorem indentStep_le_indent_run :
    Listing.indentStep ≤ (program.run listing.openBrace).2.margin.indent := by
  rw [(program.aligned_run listing.openBrace).margin]
  exact Nat.le_add_left _ _

theorem extends_run {program : Program ε} (untrimmed : program.Untrimmed) :
    Extends listing.lines (program.run listing).2.lines := by
  induction program generalizing listing with
  | finish result => exact .refl _
  | edit change => exact Edit.extends_run listing untrimmed
  | block kind body ih =>
      have inside := (kind.extends_opened listing).trans (ih (kind.opened listing) untrimmed)
      rw [lines_run_block]
      exact inside.trans (.append _ _)
  | andThen first next ihFirst ihNext =>
      obtain ⟨inFirst, inNext⟩ := untrimmed
      exact (ihFirst listing inFirst).trans (ihNext _ _ _ (inNext _ _))

end Program

/-! ## Scripts -/

mutual

/-- A script goes on after each failure. -/
def Step.program {ε : Type} (error : ε) : Step → Program ε
  | .append line => .edit (.append line)
  | .blank => .edit .blank
  | .inline content => .edit (.inline content)
  | .comment content => .edit (.comment content)
  | .commentInline content hanging => .edit (.commentInline content hanging)
  | .trimEnd => .edit .trimEnd
  | .concat start steps newLine => .edit (.concat (runAll start.listing steps).1 newLine)
  | .block kind body fails =>
      .block kind (programOf error body (if fails then .error error else .ok ()))

def programOf {ε : Type} (error : ε) : List Step → Except ε Unit → Program ε
  | [], result => .finish result
  | step :: rest, result => .andThen (step.program error) fun _ _ => programOf error rest result

end

mutual

theorem Step.run_program {ε : Type} (error : ε) (step : Step) (listing : Listing) :
    ((step.program error).run listing).2 = (step.run listing).1 := by
  cases step with
  | block kind body fails =>
      have inside := run_programOf error body (if fails then .error error else .ok ())
        (kind.opened listing)
      simp only [Step.program, Program.run, Step.run, inside]
      cases fails <;> rfl
  | _ => simp only [Step.program, Program.run, Step.run, Edit.run]

theorem run_programOf {ε : Type} (error : ε) (steps : List Step) (result : Except ε Unit)
    (listing : Listing) :
    (programOf error steps result).run listing = (result, (runAll listing steps).1) := by
  cases steps with
  | nil => rfl
  | cons step rest =>
      simp only [programOf, Program.run, runAll]
      rw [run_programOf error rest, Step.run_program error step]

end

/-! ## What every run keeps -/

/-- Whether a program ends well or fails, it leaves the margin and the width as they were.
Wherever a brace is closed there is an indent to take back, and a block that fails has no
closing line. A program that trims nothing changes no line but the last one, and that
one only gets longer. Scripts are programs that go on after each failure. -/
theorem Program.run_is_bracketed {ε : Type} (program : Program ε) (listing : Listing) :
    (program.run listing).2.margin = listing.margin ∧
      (program.run listing).2.width = listing.width ∧
      (∀ (body : Program ε) (start : Listing),
        Listing.indentStep ≤ (body.run start.openBrace).2.margin.indent) ∧
      (program.Untrimmed → Extends listing.lines (program.run listing).2.lines) ∧
      (∀ (kind : BlockKind) (body : Program ε) (start : Listing),
        ((Program.block kind body).run start).2.lines =
          (body.run (kind.opened start)).2.lines ++
            match ((Program.block kind body).run start).1 with
            | .ok () => [start.margin.apply kind.closing]
            | .error _ => []) ∧
      ∀ (error : ε) (steps : List Step),
        (programOf error steps (.ok ())).run listing = (.ok (), (runAll listing steps).1) := by
  obtain ⟨margin, width⟩ := program.aligned_run listing
  refine ⟨margin, width, ?_, ?_, ?_, ?_⟩
  · intro body start
    exact body.indentStep_le_indent_run start
  · intro untrimmed
    exact extends_run listing untrimmed
  · intro kind body start
    exact lines_run_block start kind body
  · intro error steps
    exact run_programOf error steps (.ok ()) listing

/-- A doc comment fails inside of braces, which pass the failure on. The program goes on
after it. -/
def interruptedProgram : Program String :=
  let doc : Program String :=
    .block .doc (.andThen (.edit (.append "@const")) fun _ _ => .finish (.error "boom"))
  let braced : Program String := .block .braced (.andThen doc fun result _ => .finish result)
  .andThen braced fun _ _ => .edit (.append "after")

theorem run_is_bracketed_interruptedProgram :
    (interruptedProgram.run (Listing.ofLine "x = ")).2.margin = {} ∧
      Extends ["x = "] (interruptedProgram.run (Listing.ofLine "x = ")).2.lines ∧
      (interruptedProgram.run (Listing.ofLine "x = ")).2.lines =
        ["x = \x7b", "  /**", " *   @const", "after"] := by
  have facts := interruptedProgram.run_is_bracketed (Listing.ofLine "x = ")
  have untrimmed : interruptedProgram.Untrimmed := by
    simp [interruptedProgram, Program.Untrimmed]
  exact ⟨facts.1, facts.2.2.2.1 untrimmed, by decide⟩

end Externs.Layout
