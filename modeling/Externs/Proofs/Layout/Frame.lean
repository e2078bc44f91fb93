import Externs.Generator
import Mathlib.Data.List.DropRight

/-!
# What is written after earlier lines

Declarations are written line after line. What one of them writes depends on the
margin and the width of the listing only, and the lines before it stay as they are.
-/

set_option autoImplicit false

namespace Externs

open Layout (Listing Margin)

/-! ## Earlier lines -/

namespace Layout.Listing

/-- A listing with earlier lines, of which the last one comes first. -/
def after (before : List String) (listing : Listing) : Listing :=
  { listing with backwards := listing.backwards ++ before }

variable (before : List String) (listing : Listing)

theorem lines_after : (listing.after before).lines = before.reverse ++ listing.lines := by
  simp [after, lines]

theorem after_backwards :
    Listing.after listing.backwards { margin := listing.margin, width := listing.width } =
      listing :=
  rfl

theorem append_after (line : String) :
    (listing.after before).append line = (listing.append line).after before :=
  rfl

theorem appendAll_after (lines : List String) :
    (listing.after before).appendAll lines = (listing.appendAll lines).after before := by
  induction lines generalizing listing with
  | nil => rfl
  | cons line rest ih => exact ih (listing.append line)

/-- Whether there is a line to go on in. -/
def hasLine (listing : Listing) : Prop :=
  listing.backwards ≠ []

theorem hasLine_append (line : String) : (listing.append line).hasLine :=
  List.cons_ne_nil _ _

theorem hasLine_appendAll (lines : List String) (started : listing.hasLine) :
    (listing.appendAll lines).hasLine := by
  induction lines generalizing listing with
  | nil => exact started
  | cons line rest ih => exact ih (listing.append line) (hasLine_append listing line)

theorem hasLine_inline (content : String) : (listing.inline content).hasLine := by
  simp only [hasLine, inline]
  split <;> simp

theorem hasLine_splice (lines : List String) (started : listing.hasLine) :
    (listing.splice lines).hasLine := by
  cases lines with
  | nil => exact started
  | cons first rest => exact hasLine_appendAll _ rest (hasLine_inline listing first)

/-- Text that follows on a line could as well have been part of it. -/
theorem inline_append {line : String} (shown : line ≠ "") (content : String) :
    (listing.append line).inline content = listing.append (line ++ content) := by
  have filled : line.isEmpty = false := by simpa using shown
  have longer : (line ++ content).isEmpty = false := by simp [shown]
  simp [append, inline, Margin.apply, filled, longer, String.append_assoc]

theorem inline_inline (first second : String) :
    (listing.inline first).inline second = listing.inline (first ++ second) := by
  obtain ⟨backwards, margin, width⟩ := listing
  cases backwards with
  | nil => rfl
  | cons last before => simp [inline, String.append_assoc]

variable {listing}

theorem inline_after (started : listing.hasLine) (content : String) :
    (listing.after before).inline content = (listing.inline content).after before := by
  obtain ⟨backwards, margin, width⟩ := listing
  cases backwards with
  | nil => exact absurd rfl started
  | cons last earlier => rfl

theorem splice_after (started : listing.hasLine) (lines : List String) :
    (listing.after before).splice lines = (listing.splice lines).after before := by
  cases lines with
  | nil => rfl
  | cons first rest =>
      simp only [splice]
      rw [inline_after before started, appendAll_after]

theorem commentInline_after (started : listing.hasLine) (content : String) (hanging : Nat) :
    (listing.after before).commentInline content hanging =
      (listing.commentInline content hanging).after before := by
  have last : (listing.after before).backwards.head? = listing.backwards.head? := by
    rw [after, List.head?_append, Option.or_of_isSome]
    exact List.isSome_head?.mpr started
  simp only [commentInline, last, wrapRest]
  rw [← appendAll_after, ← inline_after before started]
  rfl

variable (listing)

theorem comment_after (content : String) :
    (listing.after before).comment content = (listing.comment content).after before := by
  simp only [comment, wrapRest]
  rw [← appendAll_after, ← append_after]
  rfl

@[simp]
theorem margin_comment (content : String) : (listing.comment content).margin = listing.margin := by
  simp [comment, wrapRest]

@[simp]
theorem width_comment (content : String) : (listing.comment content).width = listing.width := by
  simp [comment, wrapRest]

@[simp]
theorem margin_commentInline (content : String) (hanging : Nat) :
    (listing.commentInline content hanging).margin = listing.margin := by
  simp [commentInline, wrapRest]

@[simp]
theorem width_commentInline (content : String) (hanging : Nat) :
    (listing.commentInline content hanging).width = listing.width := by
  simp [commentInline, wrapRest]

end Layout.Listing

/-! ## Parts of doc comments -/

/-- Writing that adds its own lines after the lines before it, and leaves the margin
and the width as they are. -/
structure Writes (write : Listing → Listing) (own : Margin → Nat → List String) : Prop where
  lines : ∀ listing, (write listing).lines = listing.lines ++ own listing.margin listing.width
  margin : ∀ listing, (write listing).margin = listing.margin
  width : ∀ listing, (write listing).width = listing.width

theorem Writes.foldl {α : Type} {write : α → Listing → Listing}
    {own : α → Margin → Nat → List String} (writes : ∀ part, Writes (write part) (own part))
    (parts : List α) :
    Writes (fun listing => parts.foldl (fun listing part => write part listing) listing)
      (fun margin width => parts.flatMap fun part => own part margin width) := by
  induction parts with
  | nil => exact ⟨fun _ => by simp, fun _ => rfl, fun _ => rfl⟩
  | cons part rest ih =>
      refine ⟨fun listing => ?_, fun listing => ?_, fun listing => ?_⟩
      · rw [List.foldl_cons, ih.lines, (writes part).lines, (writes part).margin,
          (writes part).width, List.flatMap_cons, List.append_assoc]
      · rw [List.foldl_cons, ih.margin, (writes part).margin]
      · rw [List.foldl_cons, ih.width, (writes part).width]

theorem Writes.blank {write : Listing → Listing} {own : Margin → Nat → List String}
    (writes : Writes write own) :
    Writes (fun listing => (write listing).blank)
      (fun margin width => own margin width ++ [""]) where
  lines listing := by
    rw [Layout.Listing.blank, Layout.Listing.lines_append, writes.lines, List.append_assoc]
    rfl
  margin listing := writes.margin listing
  width listing := writes.width listing

namespace DocItem

open Layout.Listing

/-- The closing bracket of a type and the name after it. -/
def closing : Option String → String
  | some name => "\x7d " ++ name
  | none => "\x7d"

/-- A tag up to its remark. -/
def tagged (word : String) (type : TypeExpr) (name : Option String) (listing : Listing) :
    Listing :=
  ((listing.append ("@" ++ word ++ " \x7b")).splice type.lines).inline (closing name)

theorem write_tag (word : String) (type : TypeExpr) (name remark : Option String)
    (listing : Listing) :
    (DocItem.tag word type name remark).write listing =
      match remark with
      | some remark => (tagged word type name listing).commentInline (" " ++ remark) hanging
      | none => tagged word type name listing := by
  cases name <;> rfl

theorem tagged_after (word : String) (type : TypeExpr) (name : Option String)
    (before : List String) (listing : Listing) :
    tagged word type name (listing.after before) =
      (tagged word type name listing).after before := by
  have started := hasLine_append listing ("@" ++ word ++ " \x7b")
  rw [tagged, append_after, splice_after before started, inline_after before]
  · rfl
  · exact hasLine_splice _ type.lines started

theorem write_after (item : DocItem) (before : List String) (listing : Listing) :
    item.write (listing.after before) = (item.write listing).after before := by
  cases item with
  | prose content => exact comment_after before listing content
  | line content => rfl
  | tag word type name remark =>
      rw [write_tag, write_tag, tagged_after]
      cases remark with
      | none => rfl
      | some remark => exact commentInline_after before (hasLine_inline _ _) (" " ++ remark) hanging

def lines (margin : Margin) (width : Nat) (item : DocItem) : List String :=
  (item.write { margin, width }).lines

theorem writes (item : DocItem) :
    Writes item.write (fun margin width => item.lines margin width) where
  lines listing := by
    have whole := write_after item listing.backwards
      { margin := listing.margin, width := listing.width }
    rw [after_backwards] at whole
    rw [whole, lines_after]
    rfl
  margin listing := by
    cases item with
    | prose content => exact margin_comment listing content
    | line content => rfl
    | tag word type name remark => cases remark <;> simp [write_tag, tagged]
  width listing := by
    cases item with
    | prose content => exact width_comment listing content
    | line content => rfl
    | tag word type name remark => cases remark <;> simp [write_tag, tagged]

end DocItem

/-! ## Declarations -/

def Layout.Margin.inDoc (margin : Margin) : Margin :=
  { margin with marks := margin.marks ++ [Listing.docMark] }

def Declaration.lines (margin : Margin) (width : Nat) (declaration : Declaration) :
    List String :=
  [margin.apply "/**"] ++ declaration.doc.flatMap (DocItem.lines margin.inDoc width) ++
    [margin.apply " */"] ++ declaration.statement.map margin.apply

theorem Declaration.writes (declaration : Declaration) :
    Writes declaration.write (fun margin width => declaration.lines margin width) := by
  have items := Writes.foldl DocItem.writes declaration.doc
  have taken (listing : Listing) :
      (writeItems declaration.doc listing.openDoc).leaveDoc.margin = listing.margin := by
    have margin : (writeItems declaration.doc listing.openDoc).margin = _ :=
      items.margin listing.openDoc
    rw [Layout.Listing.leaveDoc, margin]
    simp [Layout.Listing.openDoc]
  refine ⟨fun listing => ?_, fun listing => ?_, fun listing => ?_⟩
  · have written :
        (writeItems declaration.doc listing.openDoc).leaveDoc.lines =
          listing.openDoc.lines ++
            declaration.doc.flatMap (DocItem.lines listing.margin.inDoc listing.width) :=
      items.lines listing.openDoc
    have opened : listing.openDoc.lines = listing.lines ++ [listing.margin.apply "/**"] :=
      Layout.Listing.lines_append "/**" listing
    rw [Declaration.write, Layout.Listing.lines_appendAll, Layout.Listing.closeDoc,
      Layout.Listing.lines_append, Layout.Listing.margin_append, taken, written, opened]
    simp [Declaration.lines]
  · rw [Declaration.write, Layout.Listing.margin_appendAll, Layout.Listing.closeDoc,
      Layout.Listing.margin_append, taken]
  · rw [Declaration.write, Layout.Listing.width_appendAll, Layout.Listing.closeDoc,
      Layout.Listing.width_append]
    exact items.width listing.openDoc

def Block.lines (margin : Margin) (width : Nat) : Block → List String
  | .single declaration => declaration.lines margin width
  | .cluster declarations =>
      declarations.flatMap fun declaration => declaration.lines margin width ++ [""]

theorem Block.writes (block : Block) :
    Writes block.write (fun margin width => block.lines margin width) := by
  cases block with
  | single declaration => exact declaration.writes
  | cluster declarations =>
      exact Writes.foldl (fun declaration => declaration.writes.blank) declarations

/-! ## Files -/

theorem Layout.Margin.apply_empty (line : String) : Layout.Margin.apply {} line = line := by
  rw [Layout.Margin.apply]
  split
  · next empty => exact (String.isEmpty_iff.mp empty).symm
  · exact String.empty_append

theorem Layout.Margin.map_apply_empty (lines : List String) :
    lines.map (Layout.Margin.apply {}) = lines := by
  rw [List.map_congr_left fun line _ => Layout.Margin.apply_empty line, List.map_id']

/-- A declaration outside of other blocks. -/
theorem Declaration.lines_empty (width : Nat) (declaration : Declaration) :
    declaration.lines {} width =
      ["/**"] ++ declaration.doc.flatMap (DocItem.lines (Layout.Margin.inDoc {}) width) ++
        [" */"] ++ declaration.statement := by
  simp only [Declaration.lines, Layout.Margin.apply_empty, Layout.Margin.map_apply_empty]

theorem Layout.Listing.lines_trimEnd (listing : Layout.Listing) :
    listing.trimEnd.lines = listing.lines.rdropWhile Text.allBlank := by
  rw [Layout.Listing.lines, Layout.Listing.lines, List.rdropWhile_reverse]
  rfl

namespace Generator

theorem lines_writeBlocks (blocks : List Block) (listing : Listing) :
    (writeBlocks blocks listing).lines =
      listing.lines ++
        blocks.flatMap fun block => block.lines listing.margin listing.width ++ [""] :=
  (Writes.foldl (fun block => (Block.writes block).blank) blocks).lines listing

theorem lines_writeBlocks_ofWidth (blocks : List Block) (header : List String) (width : Nat) :
    (writeBlocks blocks ((Layout.Listing.ofWidth width).appendAll header)).lines =
      header ++ blocks.flatMap fun block => block.lines {} width ++ [""] := by
  rw [lines_writeBlocks, Layout.Listing.lines_appendAll, Layout.Listing.margin_appendAll,
    Layout.Listing.width_appendAll, Layout.Listing.lines_ofWidth, List.nil_append]
  exact congrArg (· ++ _) (Layout.Margin.map_apply_empty header)

end Generator

end Externs
