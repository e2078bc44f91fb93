import Externs.Proofs.Declaration.Composition
import Externs.Proofs.Layout.Ink

/-!
# The width of comments only moves prose

The width at which prose is wrapped decides where its lines end and nothing else. Two
files that differ in it have the same ink, once the marks in front of the lines of doc
comments are taken away.
-/

set_option autoImplicit false

namespace Externs

open Layout (Listing Margin)

/-! ## The ink of lines -/

namespace Layout

/-- A line without the mark of a doc comment. -/
def unmarked (line : String) : List Char :=
  if Listing.docMark.toList <+: line.toList then
    line.toList.drop Listing.docMark.toList.length
  else line.toList

/-- What lines say: the ink of all of them, without the marks of doc comments. -/
def inkOfLines (lines : List String) : List Char :=
  lines.flatMap fun line => Text.ink (unmarked line)

theorem inkOfLines_append (first second : List String) :
    inkOfLines (first ++ second) = inkOfLines first ++ inkOfLines second :=
  List.flatMap_append

theorem inkOfLines_singleton (line : String) : inkOfLines [line] = Text.ink (unmarked line) :=
  List.flatMap_singleton _ line

theorem inkOfLines_blank : inkOfLines [""] = [] :=
  rfl

theorem inkOfLines_flatMap {α : Type} (own : α → List String) (parts : List α) :
    inkOfLines (parts.flatMap own) = parts.flatMap fun part => inkOfLines (own part) :=
  List.flatMap_assoc

/-- A line of a doc comment is marked unless it is empty. -/
theorem unmarked_apply_inDoc (line : String) :
    unmarked (Margin.apply (Margin.inDoc {}) line) = line.toList := by
  rw [Margin.apply]
  split
  · next empty => rw [String.isEmpty_iff.mp empty]; rfl
  · have margin : (Margin.inDoc {}).text = Listing.docMark := rfl
    rw [margin, unmarked, String.toList_append, if_pos (List.prefix_append _ _), List.drop_left]

theorem inkOfLines_map_inDoc (lines : List String) :
    inkOfLines (lines.map (Margin.apply (Margin.inDoc {}))) =
      lines.flatMap fun line => Text.ink line.toList := by
  simp only [inkOfLines, List.flatMap_map, unmarked_apply_inDoc]

/-- The mark has no brace, so a line is not marked by what stands behind a brace. -/
theorem unmarked_append_brace (line rest : String) :
    unmarked (line ++ ("\x7d" ++ rest)) = unmarked line ++ ("\x7d" ++ rest).toList := by
  have marked :
      Listing.docMark.toList <+: (line ++ ("\x7d" ++ rest)).toList ↔
        Listing.docMark.toList <+: line.toList := by
    simp only [String.toList_append, Listing.docMark]
    rcases line.toList with _ | ⟨a, _ | ⟨b, _ | ⟨c, more⟩⟩⟩ <;> simp
  rw [unmarked, unmarked]
  simp only [marked]
  split
  · next within =>
      rw [String.toList_append, List.drop_append_of_le_length within.length_le]
  · rw [String.toList_append]

theorem ink_unmarked_of_allBlank {line : String} (blank : Text.allBlank line = true) :
    Text.ink (unmarked line) = [] := by
  have all : ∀ c ∈ line.toList, Text.isBlank c = true := List.all_eq_true.mp blank
  apply Text.ink_of_blank
  rw [List.all_eq_true, unmarked]
  split
  · exact fun c member => all c (List.mem_of_mem_drop member)
  · exact all

theorem inkOfLines_rdropWhile (lines : List String) :
    inkOfLines (lines.rdropWhile Text.allBlank) = inkOfLines lines := by
  have dropped : inkOfLines (lines.rtakeWhile Text.allBlank) = [] :=
    List.flatMap_eq_nil_iff.mpr fun line member =>
      ink_unmarked_of_allBlank (List.mem_rtakeWhile_imp member)
  calc inkOfLines (lines.rdropWhile Text.allBlank)
      = inkOfLines (lines.rdropWhile Text.allBlank) ++
          inkOfLines (lines.rtakeWhile Text.allBlank) := by rw [dropped, List.append_nil]
    _ = inkOfLines lines := by
        rw [← inkOfLines_append, List.rdropWhile_append_rtakeWhile]

/-! ## Writing in a doc comment -/

namespace Listing

theorem inkOfLines_inline_brace (rest : String) (listing : Listing) :
    inkOfLines (listing.inline ("\x7d" ++ rest)).lines =
      inkOfLines listing.lines ++ Text.ink ("\x7d" ++ rest).toList := by
  obtain ⟨backwards, margin, width⟩ := listing
  cases backwards with
  | nil =>
      have whole := unmarked_append_brace "" rest
      rw [String.empty_append] at whole
      exact (inkOfLines_singleton _).trans (congrArg Text.ink whole)
  | cons last before =>
      simp [lines, inline, inkOfLines, unmarked_append_brace]

variable {listing : Listing} (inside : listing.margin = Margin.inDoc {})

include inside

theorem inkOfLines_append_inDoc (line : String) :
    inkOfLines (listing.append line).lines = inkOfLines listing.lines ++ Text.ink line.toList := by
  rw [lines_append, inkOfLines_append, inside, inkOfLines_singleton, unmarked_apply_inDoc]

theorem inkOfLines_appendAll (lines : List String) :
    inkOfLines (listing.appendAll lines).lines =
      inkOfLines listing.lines ++ lines.flatMap fun line => Text.ink line.toList := by
  rw [lines_appendAll, inkOfLines_append, inside, inkOfLines_map_inDoc]

theorem inkOfLines_wrapRest (rest : List Char) (hanging : Nat) :
    inkOfLines (listing.wrapRest rest hanging).lines =
      inkOfLines listing.lines ++ Text.ink rest := by
  rw [wrapRest, inkOfLines_appendAll inside, flatMap_ink_hanging, ink_wrap]

theorem inkOfLines_comment (content : String) :
    inkOfLines (listing.comment content).lines =
      inkOfLines listing.lines ++ Text.ink (escapeCommentEnd content.toList) := by
  simp only [comment]
  rw [inkOfLines_wrapRest (by simpa using inside), inkOfLines_append_inDoc inside,
    String.toList_ofList, List.append_assoc, ink_splitLine]

theorem inkOfLines_commentInline (closing content : String) (hanging : Nat) :
    inkOfLines ((listing.inline ("\x7d" ++ closing)).commentInline content hanging).lines =
      inkOfLines listing.lines ++ Text.ink ("\x7d" ++ closing).toList ++
        Text.ink (escapeCommentEnd content.toList) := by
  simp only [commentInline]
  rw [inkOfLines_wrapRest (by simpa using inside), inline_inline, String.append_assoc,
    inkOfLines_inline_brace, ← String.append_assoc, String.toList_append, String.toList_ofList,
    Text.ink_append, List.append_assoc, List.append_assoc, ink_splitLine, List.append_assoc]

theorem inkOfLines_splice {line : String} (shown : line ≠ "") (lines : List String) :
    inkOfLines ((listing.append line).splice lines).lines =
      inkOfLines listing.lines ++ Text.ink line.toList ++
        lines.flatMap fun line => Text.ink line.toList := by
  cases lines with
  | nil => rw [splice, inkOfLines_append_inDoc inside, List.flatMap_nil, List.append_nil]
  | cons first rest =>
      rw [splice, inline_append _ shown, inkOfLines_appendAll (by simpa using inside),
        inkOfLines_append_inDoc inside, String.toList_append, Text.ink_append, List.flatMap_cons]
      simp only [List.append_assoc]

end Listing

end Layout

/-! ## Declarations -/

/-- What a part of a doc comment says, wherever its lines end. -/
def DocItem.ink : DocItem → List Char
  | .prose content => Text.ink (Layout.escapeCommentEnd content.toList)
  | .line content => Text.ink content.toList
  | .tag word type name remark =>
      Text.ink ("@" ++ word ++ " \x7b").toList ++
        (type.lines.flatMap fun line => Text.ink line.toList) ++
        Text.ink (closing name).toList ++
        (remark.elim [] fun remark => Text.ink (Layout.escapeCommentEnd (" " ++ remark).toList))

theorem DocItem.closing_eq (name : Option String) :
    ∃ rest, closing name = "\x7d" ++ rest := by
  cases name with
  | none => exact ⟨"", rfl⟩
  | some name => exact ⟨" " ++ name, by rw [← String.append_assoc]; rfl⟩

theorem DocItem.inkOfLines_lines (item : DocItem) (width : Nat) :
    Layout.inkOfLines (item.lines (Margin.inDoc {}) width) = item.ink := by
  have inside : ({ margin := Margin.inDoc {}, width } : Listing).margin = Margin.inDoc {} := rfl
  cases item with
  | prose content => exact Layout.Listing.inkOfLines_comment inside content
  | line content => exact Layout.Listing.inkOfLines_append_inDoc inside content
  | tag word type name remark =>
      have shown : "@" ++ word ++ " \x7b" ≠ "" := by simp
      have spliced := Layout.Listing.inkOfLines_splice inside shown type.lines
      obtain ⟨rest, closed⟩ := closing_eq name
      rw [DocItem.lines, write_tag, DocItem.ink, tagged, closed]
      cases remark with
      | none =>
          simp only [Option.elim_none, List.append_nil]
          rw [Layout.Listing.inkOfLines_inline_brace, spliced]
          rfl
      | some remark =>
          simp only [Option.elim_some]
          rw [Layout.Listing.inkOfLines_commentInline (by simp), spliced]
          rfl

/-- What a declaration says, wherever the lines of its prose end. -/
def Declaration.ink (declaration : Declaration) : List Char :=
  Layout.inkOfLines ["/**"] ++ declaration.doc.flatMap DocItem.ink ++
    Layout.inkOfLines [" */"] ++ Layout.inkOfLines declaration.statement

theorem Declaration.inkOfLines_lines (declaration : Declaration) (width : Nat) :
    Layout.inkOfLines (declaration.lines {} width) = declaration.ink := by
  rw [Declaration.lines_empty, Declaration.ink]
  simp only [Layout.inkOfLines_append, Layout.inkOfLines_flatMap, DocItem.inkOfLines_lines]

def Block.ink : Block → List Char
  | .single declaration => declaration.ink
  | .cluster declarations => declarations.flatMap Declaration.ink

theorem Block.inkOfLines_lines (block : Block) (width : Nat) :
    Layout.inkOfLines (block.lines {} width) = block.ink := by
  cases block with
  | single declaration => exact declaration.inkOfLines_lines width
  | cluster declarations =>
      simp only [Block.lines, Block.ink, Layout.inkOfLines_flatMap, Layout.inkOfLines_append,
        Declaration.inkOfLines_lines, Layout.inkOfLines_blank, List.append_nil]

/-! ## Files -/

namespace Generator

/-- A generator with another width for prose. -/
def withWidth (generator : Generator) (width : Nat) : Generator :=
  { generator with conventions.commentWidth := width }

theorem inkOfLines_writeBlocks (header : List String) (blocks : List Block) (width : Nat) :
    Layout.inkOfLines
        (writeBlocks blocks ((Listing.ofWidth width).appendAll header)).trimEnd.lines =
      Layout.inkOfLines header ++ blocks.flatMap Block.ink := by
  rw [Layout.Listing.lines_trimEnd, Layout.inkOfLines_rdropWhile, lines_writeBlocks_ofWidth,
    Layout.inkOfLines_append, Layout.inkOfLines_flatMap]
  simp only [Layout.inkOfLines_append, Block.inkOfLines_lines, Layout.inkOfLines_blank,
    List.append_nil]

/-- The width of comments decides neither whether there is a file nor what it says. -/
theorem inkOfLines_listing_withWidth (generator : Generator) (space : Namespace)
    (first second : Nat) :
    (∃ defect,
      (generator.withWidth first).listing space = .error defect ∧
        (generator.withWidth second).listing space = .error defect) ∨
      ∃ one other,
        (generator.withWidth first).listing space = .ok one ∧
          (generator.withWidth second).listing space = .ok other ∧
          Layout.inkOfLines one.lines = Layout.inkOfLines other.lines := by
  have site (width : Nat) : (generator.withWidth width).site space = generator.site space := rfl
  unfold listing
  simp only [site]
  cases space.checkNames with
  | error defect => exact .inl ⟨defect, rfl, rfl⟩
  | ok checked =>
      cases space.entities.mapM (generator.site space).entityBlock with
      | error defect => exact .inl ⟨defect, rfl, rfl⟩
      | ok blocks =>
          refine .inr ⟨_, _, rfl, rfl, ?_⟩
          rw [inkOfLines_writeBlocks, inkOfLines_writeBlocks]
          rfl

end Generator

end Externs
