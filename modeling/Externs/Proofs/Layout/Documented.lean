import Externs.Proofs.JavaScript.Code
import Externs.Proofs.Text.Boundary
import Externs.Proofs.TypeExpr.Parts

/-!
# Lines of doc comments

A text is cut at its line feeds, and a doc comment reaches from a line `/**` to the next
line ` */`. The parts of a doc comment that stand on one line give lines with the mark of
doc comments, so all lines between these two are marked or empty.
-/

set_option autoImplicit false

namespace Externs

open Layout (Listing Margin)

/-! ## Texts on one line -/

/-- The parts of a text between its line feeds. -/
def Text.fedLines (text : String) : List String :=
  (text.toList.splitOn '\n').map String.ofList

def isOneLine (text : String) : Bool :=
  !text.toList.contains '\n'

theorem isOneLine_iff {text : String} : isOneLine text = true ↔ '\n' ∉ text.toList := by
  simp [isOneLine]

theorem isOneLine_append (left right : String) :
    isOneLine (left ++ right) = (isOneLine left && isOneLine right) := by
  simp [isOneLine, Bool.not_or]

/-- A text whose characters are all in a text on one line. -/
theorem isOneLine_of_subset {text : String} {part : List Char} (one : isOneLine text = true)
    (subset : part ⊆ text.toList) : isOneLine (String.ofList part) = true := by
  rw [isOneLine_iff, String.toList_ofList]
  exact fun member => isOneLine_iff.mp one (subset member)

theorem Text.isOneLine_trim {text : String} (one : isOneLine text = true) :
    isOneLine (Text.trim text) = true :=
  isOneLine_of_subset one fun _ member =>
    (Text.trimStart_isSuffix _).subset ((Text.trimEnd_isPrefix _).subset member)

theorem Layout.newline_not_mem_escapeCommentEnd {text : List Char} (one : '\n' ∉ text) :
    '\n' ∉ escapeCommentEnd text := by
  fun_induction escapeCommentEnd text with
  | case1 rest ih =>
      have later := ih fun member => one (by simp [member])
      simp [later]
  | case2 c rest other ih =>
      rw [List.mem_cons, not_or] at one ⊢
      exact ⟨one.1, ih one.2⟩
  | case3 => exact one

theorem Layout.isOneLine_escaped {text : String} (one : isOneLine text = true) :
    isOneLine (escaped text) = true := by
  rw [isOneLine_iff, escaped, String.toList_ofList]
  exact newline_not_mem_escapeCommentEnd (isOneLine_iff.mp one)

theorem Text.fedLines_of_isOneLine {text : String} (one : isOneLine text = true) :
    Text.fedLines text = [text] := by
  rw [Text.fedLines, List.splitOn_eq_singleton (isOneLine_iff.mp one), List.map_singleton,
    String.ofList_toList]

/-- Lines that end with a line feed each are cut one by one, and an empty one is left. -/
theorem Text.map_splitOn_unlines (lines : List String) :
    ((JavaScript.unlines lines).splitOn '\n').map String.ofList =
      lines.flatMap Text.fedLines ++ [""] := by
  induction lines with
  | nil => rfl
  | cons line rest ih =>
      have joined : JavaScript.unlines (line :: rest) =
          line.toList ++ '\n' :: JavaScript.unlines rest := by
        simp [JavaScript.unlines]
      rw [joined, List.splitOn_append_cons_self, List.map_append, ih, List.flatMap_cons,
        List.append_assoc]
      rfl

theorem Text.fedLines_of_unlines {text : String} {lines : List String}
    (whole : text.toList = JavaScript.unlines lines) :
    Text.fedLines text = lines.flatMap Text.fedLines ++ [""] := by
  rw [Text.fedLines, whole, Text.map_splitOn_unlines]

theorem Text.flatMap_fedLines {lines : List String}
    (one : ∀ line ∈ lines, isOneLine line = true) : lines.flatMap Text.fedLines = lines := by
  rw [List.flatMap_congr fun line member => Text.fedLines_of_isOneLine (one line member),
    List.flatMap_singleton']

/-! ## Lines of a text -/

namespace Text

theorem newline_not_mem_piece {text piece : List Char} (member : piece ∈ pieces text) :
    ∃ body, '\n' ∉ body ∧ (piece = body ∨ piece = body ++ ['\n']) := by
  induction text generalizing piece with
  | nil => exact absurd member (by simp [pieces])
  | cons c rest ih =>
      by_cases feed : c = '\n'
      · rw [feed, pieces_feed] at member
        rcases List.mem_cons.mp member with rfl | later
        · exact ⟨[], by simp, .inr rfl⟩
        · exact ih later
      · rcases pieces_other feed rest with ⟨-, single⟩ | ⟨first, more, found, longer⟩
        · rw [single, List.mem_singleton] at member
          exact ⟨[c], by simpa using Ne.symm feed, .inl member⟩
        · rw [longer] at member
          rcases List.mem_cons.mp member with rfl | later
          · obtain ⟨body, none, shape⟩ := ih (found ▸ List.mem_cons_self)
            refine ⟨c :: body, by simp [none, Ne.symm feed], ?_⟩
            rcases shape with rfl | rfl
            · exact .inl rfl
            · exact .inr rfl
          · exact ih (found ▸ List.mem_cons_of_mem _ later)

theorem newline_not_mem_withoutBreak {body : List Char} (none : '\n' ∉ body) :
    '\n' ∉ withoutBreak body ∧ '\n' ∉ withoutBreak (body ++ ['\n']) := by
  have backwards : '\n' ∉ body.reverse := by simpa using none
  constructor
  · unfold withoutBreak
    split
    · next found => simp [found] at backwards
    · next found => simp [found] at backwards
    · exact none
  · unfold withoutBreak
    rw [List.reverse_append, List.reverse_singleton, List.singleton_append]
    split
    · next line found =>
        obtain ⟨-, same⟩ := List.cons.inj found
        rw [same, List.mem_cons, not_or] at backwards
        simpa using backwards.2
    · next line _ found =>
        obtain ⟨-, same⟩ := List.cons.inj found
        rwa [← same, List.reverse_reverse]
    · next _ other => exact absurd rfl (other body.reverse)

theorem isOneLine_of_mem_lines {text line : String} (member : line ∈ lines text) :
    isOneLine line = true := by
  obtain ⟨piece, found, rfl⟩ := List.mem_map.mp member
  obtain ⟨body, none, shape⟩ := newline_not_mem_piece found
  obtain ⟨alone, ended⟩ := newline_not_mem_withoutBreak none
  rw [isOneLine_iff, String.toList_ofList]
  rcases shape with rfl | rfl
  · exact alone
  · exact ended

end Text

/-! ## Doc comments -/

/-- Up to the end of a doc comment, a line that is not empty has the mark of doc
comments. -/
def MarkedDocs (lines : List String) : Prop :=
  ∀ before inside after,
    lines = before ++ "/**" :: inside ++ " */" :: after → " */" ∉ inside →
      ∀ line ∈ inside, line = "" ∨ Listing.docMark.toList <+: line.toList

/-- A line of a doc comment that is not empty. -/
structure IsMarked (line : String) : Prop where
  mark : Listing.docMark.toList <+: line.toList
  one : isOneLine line = true

def IsDocLine (line : String) : Prop :=
  line = "" ∨ IsMarked line

/-- A line that does not open a doc comment. -/
structure IsPlainLine (line : String) : Prop where
  one : isOneLine line = true
  apart : line ≠ "/**"

/-- Lines outside of doc comments, and doc comments of marked lines. -/
inductive Documented : List String → Prop where
  | nil : Documented []
  | plain {line : String} {rest : List String} :
      IsPlainLine line → Documented rest → Documented (line :: rest)
  | doc {inside rest : List String} :
      (∀ line ∈ inside, IsDocLine line) → Documented rest →
        Documented ("/**" :: inside ++ " */" :: rest)

theorem IsDocLine.isOneLine {line : String} (docLine : IsDocLine line) :
    isOneLine line = true := by
  rcases docLine with rfl | marked
  · rfl
  · exact marked.one

theorem IsDocLine.ne_opening {line : String} (docLine : IsDocLine line) : line ≠ "/**" := by
  rintro rfl
  rcases docLine with empty | marked
  · exact absurd empty (by decide)
  · exact absurd marked.mark (by decide)

namespace Documented

theorem append {first second : List String} (one : Documented first)
    (two : Documented second) : Documented (first ++ second) := by
  induction one with
  | nil => exact two
  | plain alone _ ih => exact .plain alone ih
  | doc marked _ ih =>
      rw [List.append_assoc]
      exact .doc marked ih

theorem of_plain {lines : List String} (plain : ∀ line ∈ lines, IsPlainLine line) :
    Documented lines := by
  induction lines with
  | nil => exact .nil
  | cons line rest ih =>
      obtain ⟨alone, others⟩ := List.forall_mem_cons.mp plain
      exact .plain alone (ih others)

theorem blank : Documented [""] :=
  .plain ⟨rfl, by decide⟩ .nil

theorem flatMap {α : Type} {own : α → List String} {parts : List α}
    (each : ∀ part ∈ parts, Documented (own part)) : Documented (parts.flatMap own) := by
  induction parts with
  | nil => exact .nil
  | cons part rest ih =>
      obtain ⟨first, others⟩ := List.forall_mem_cons.mp each
      exact first.append (ih others)

theorem isOneLine {lines : List String} (documented : Documented lines) :
    ∀ line ∈ lines, isOneLine line = true := by
  induction documented with
  | nil => exact fun line member => nomatch member
  | plain alone _ ih => exact List.forall_mem_cons.mpr ⟨alone.one, ih⟩
  | doc marked _ ih =>
      simp only [List.forall_mem_append, List.forall_mem_cons]
      exact ⟨⟨rfl, fun line member => (marked line member).isOneLine⟩, rfl, ih⟩

/-- A doc comment ends with the first of its closing lines, and none of its lines opens
another one. -/
theorem markedDocs {lines : List String} (documented : Documented lines) :
    MarkedDocs lines := by
  induction documented with
  | nil =>
      intro before inside after split
      simp at split
  | plain alone _ ih =>
      intro before inside after split closed
      rw [List.append_assoc, List.cons_eq_append_iff] at split
      obtain ⟨rfl, opened⟩ | ⟨earlier, rfl, later⟩ := split
      · exact absurd (List.cons.inj opened).1.symm alone.apart
      · exact ih earlier inside after (by rw [later, List.append_assoc]) closed
  | @doc own rest marked _ ih =>
      intro before inside after split closed
      rw [List.append_assoc, List.cons_append, List.cons_eq_append_iff] at split
      obtain ⟨rfl, here⟩ | ⟨earlier, rfl, later⟩ := split
      · -- the comment itself: it ends with its own lines, or one of these ends it earlier
        obtain ⟨-, here⟩ := List.cons.inj here
        have within : inside ⊆ own := by
          rcases List.append_eq_append_iff.mp here with ⟨more, same, -⟩ | ⟨more, same, ends⟩
          · rw [same]
            exact List.subset_append_left inside more
          · cases more with
            | nil => rw [same, List.append_nil]; exact List.Subset.refl own
            | cons line more =>
                obtain ⟨rfl, -⟩ := List.cons.inj ends
                rw [same] at closed
                exact absurd (by simp) closed
        exact fun line member => (marked line (within member)).imp_right IsMarked.mark
      · -- another comment, which opens after this one
        rcases List.append_eq_append_iff.mp later with ⟨more, rfl, ends⟩ | ⟨more, rfl, ends⟩
        · cases more with
          | nil =>
              obtain ⟨same, -⟩ := List.cons.inj ends
              exact absurd same (by decide)
          | cons line more =>
              have ends : rest = more ++ ("/**" :: inside ++ " */" :: after) :=
                (List.cons.inj ends).2
              exact ih more inside after (by rw [ends, List.append_assoc]) closed
        · cases more with
          | nil =>
              obtain ⟨same, -⟩ := List.cons.inj ends
              exact absurd same (by decide)
          | cons line more =>
              obtain ⟨rfl, -⟩ := List.cons.inj ends
              exact absurd rfl (marked "/**" (by simp)).ne_opening

end Documented

theorem MarkedDocs.of_isPrefix {lines more : List String} (marked : MarkedDocs more)
    (start : lines <+: more) : MarkedDocs lines := by
  obtain ⟨rest, rfl⟩ := start
  intro before inside after split closed
  exact marked before inside (after ++ rest) (by rw [split]; simp) closed

theorem MarkedDocs.blank {lines : List String} (marked : MarkedDocs lines) :
    MarkedDocs (lines ++ [""]) := by
  intro before inside after split closed
  rcases List.eq_nil_or_concat after with rfl | ⟨earlier, last, rfl⟩
  · have ends := List.append_inj_right' split rfl
    exact absurd ends (by decide)
  · rw [List.concat_eq_append, ← List.cons_append, ← List.append_assoc] at split
    exact marked before inside earlier (List.append_inj_left' split rfl) closed

/-! ## Parts of doc comments -/

def DocItem.IsOneLine : DocItem → Prop
  | .prose content => isOneLine content = true
  | .line content => isOneLine content = true
  | .tag word type name remark =>
      isOneLine word = true ∧ TypeExpr.Lacks '\n' type ∧
        (∀ label ∈ name, isOneLine label = true) ∧ ∀ text ∈ remark, isOneLine text = true

theorem IsMarked.append {line content : String} (marked : IsMarked line)
    (one : isOneLine content = true) : IsMarked (line ++ content) where
  mark := by
    rw [String.toList_append]
    exact marked.mark.trans (List.prefix_append _ _)
  one := by rw [isOneLine_append, marked.one, one]; rfl

theorem isMarked_apply {line : String} (shown : line ≠ "") (one : isOneLine line = true) :
    IsMarked (Margin.apply (Margin.inDoc {}) line) := by
  have filled : line.isEmpty = false := by simpa using shown
  have mark : IsMarked Listing.docMark := ⟨List.prefix_refl _, by decide⟩
  rw [Margin.apply, filled]
  exact mark.append one

theorem isDocLine_apply {line : String} (one : isOneLine line = true) :
    IsDocLine (Margin.apply (Margin.inDoc {}) line) := by
  by_cases empty : line = ""
  · exact .inl (by rw [empty]; rfl)
  · exact .inr (isMarked_apply empty one)

namespace Layout.Listing

/-- A type that follows on a line goes on in it, and its other lines come after. -/
theorem splice_lines {opening : String} (shown : opening ≠ "") (type : TypeExpr)
    (listing : Listing) :
    (listing.append opening).splice type.lines = listing.appendAll (type.linesAfter opening) := by
  have goesOn (current : String) :
      (listing.append opening).splice (type.linesAfter current) =
        listing.appendAll (type.linesAfter (opening ++ current)) := by
    induction type generalizing current with
    | nil => exact inline_append listing shown current
    | cons piece rest ih =>
        cases piece with
        | text content =>
            have later := ih (current ++ content)
            rwa [← String.append_assoc] at later
        | newline depth =>
            simp only [TypeExpr.linesAfter, splice, inline_append listing shown]
            rfl
  have whole := goesOn ""
  rwa [String.append_empty] at whole

variable {listing : Listing} (inside : listing.margin = Margin.inDoc {})

include inside

theorem isDocLine_wrapRest (each : listing.Each IsDocLine) {rest : List Char}
    (one : '\n' ∉ rest) (hanging : Nat) : (listing.wrapRest rest hanging).Each IsDocLine := by
  refine each.appendAll fun line member => ?_
  obtain ⟨piece, found, rfl⟩ := List.mem_map.mp member
  have indent : isOneLine (spaces hanging) = true := by simp [isOneLine, spaces]
  have inPiece : isOneLine (String.ofList piece) = true := by
    rw [isOneLine_iff, String.toList_ofList]
    exact fun member => one ((infix_of_mem_wrap found).subset member)
  rw [inside]
  apply isDocLine_apply
  rw [isOneLine_append, indent, inPiece]
  rfl

theorem isDocLine_comment (each : listing.Each IsDocLine) {content : String}
    (one : isOneLine content = true) : (listing.comment content).Each IsDocLine := by
  have escaped := newline_not_mem_escapeCommentEnd (isOneLine_iff.mp one)
  simp only [comment]
  apply isDocLine_wrapRest (by simpa using inside)
  · apply each.append
    rw [inside]
    apply isDocLine_apply
    rw [isOneLine_iff, String.toList_ofList]
    exact fun member => escaped ((splitLine_fst_isPrefix _ _).subset member)
  · exact fun member => escaped ((splitLine_snd_isSuffix _ _).subset member)

/-- What goes on in a marked line leaves it marked. -/
theorem isDocLine_commentInline (started : listing.hasLine) (each : listing.Each IsMarked)
    {content : String} (one : isOneLine content = true) (hanging : Nat) :
    (listing.commentInline content hanging).Each IsDocLine := by
  have escaped := newline_not_mem_escapeCommentEnd (isOneLine_iff.mp one)
  simp only [commentInline]
  apply isDocLine_wrapRest (by simpa using inside)
  · refine each.inline (fun nothing => absurd started nothing) ?_ ?_
    · intro last marked
      refine .inr (marked.append ?_)
      rw [isOneLine_iff, String.toList_ofList]
      exact fun member => escaped ((splitLine_fst_isPrefix _ _).subset member)
    · exact fun line marked => .inr marked
  · exact fun member => escaped ((splitLine_snd_isSuffix _ _).subset member)

end Layout.Listing

namespace DocItem

theorem isOneLine_closing {name : Option String} (one : ∀ label ∈ name, isOneLine label = true) :
    isOneLine (closing name) = true := by
  cases name with
  | none => rfl
  | some label => rw [closing, isOneLine_append, one label rfl]; rfl

theorem isMarked_tagged {word : String} {type : TypeExpr} {name : Option String}
    (inWord : isOneLine word = true) (inType : TypeExpr.Lacks '\n' type)
    (inName : ∀ label ∈ name, isOneLine label = true) (width : Nat) :
    (tagged word type name { margin := Margin.inDoc {}, width }).Each IsMarked := by
  have shown : "@" ++ word ++ " \x7b" ≠ "" := by simp
  have opening : isOneLine ("@" ++ word ++ " \x7b") = true := by
    rw [isOneLine_append, isOneLine_append, inWord]
    rfl
  have lines : ∀ line ∈ type.linesAfter ("@" ++ word ++ " \x7b"),
      IsMarked (Margin.apply (Margin.inDoc {}) line) := by
    intro line member
    apply isMarked_apply
    · exact inType.indentsLines.ne_empty (.inl shown) line member
    · rw [isOneLine_iff] at opening ⊢
      exact inType.lines (by decide) opening line member
  have start : Listing.Each IsMarked { margin := Margin.inDoc {}, width } :=
    fun line member => nomatch member
  have started := Layout.Listing.hasLine_splice _ type.lines (Layout.Listing.hasLine_append
    { margin := Margin.inDoc {}, width } ("@" ++ word ++ " \x7b"))
  rw [Layout.Listing.splice_lines shown] at started
  rw [tagged, Layout.Listing.splice_lines shown]
  exact (start.appendAll lines).inline (fun nothing => absurd started nothing)
    (fun _ marked => marked.append (isOneLine_closing inName)) fun _ => id

theorem isDocLine_lines {item : DocItem} (one : item.IsOneLine) (width : Nat) :
    ∀ line ∈ item.lines (Margin.inDoc {}) width, IsDocLine line := by
  suffices each : (item.write { margin := Margin.inDoc {}, width }).Each IsDocLine by
    intro line member
    exact each line (List.mem_reverse.mp member)
  have start : Listing.Each IsDocLine { margin := Margin.inDoc {}, width } :=
    fun line member => nomatch member
  cases item with
  | prose content => exact Layout.Listing.isDocLine_comment rfl start one
  | line content => exact start.append (isDocLine_apply one)
  | tag word type name remark =>
      obtain ⟨inWord, inType, inName, inRemark⟩ := one
      have marked := isMarked_tagged inWord inType inName width
      rw [write_tag]
      cases remark with
      | none => exact fun line member => .inr (marked line member)
      | some remark =>
          have content : isOneLine (" " ++ remark) = true := by
            rw [isOneLine_append, inRemark remark rfl]
            rfl
          exact Layout.Listing.isDocLine_commentInline (by simp)
            (Layout.Listing.hasLine_inline _ _) marked content hanging

end DocItem

end Externs
