import Externs.Proofs.Layout.Frame

/-!
# Prose does not end its comment

Free text is escaped, broken into lines, trimmed and joined to margins and tags. No
line that comes out of this has the end of a block comment in it.
-/

set_option autoImplicit false

namespace Externs

open Layout (Listing Margin)

/-! ## Pieces of a text -/

theorem Text.trimStart_isSuffix (text : List Char) : Text.trimStart text <:+ text :=
  List.dropWhile_suffix _

theorem Text.trimEnd_isPrefix (text : List Char) : Text.trimEnd text <+: text := by
  rw [Text.trimEnd, ← List.reverse_suffix, List.reverse_reverse]
  exact List.dropWhile_suffix _

namespace Layout

/-- The last space of a text stands between the line and the rest. -/
theorem eq_append_of_beforeLastSpace? {text line : List Char}
    (found : beforeLastSpace? text = some line) : ∃ word, text = line ++ ' ' :: word := by
  rw [beforeLastSpace?] at found
  split at found
  · exact absurd found (by simp)
  · next last before rest =>
      obtain rfl := Option.some.inj found
      have space : last = ' ' := by
        have head := List.head?_dropWhile_not (· != ' ') text.reverse
        rw [rest] at head
        simpa using head
      refine ⟨(text.reverse.takeWhile (· != ' ')).reverse, ?_⟩
      have whole := List.takeWhile_append_dropWhile (p := (· != ' ')) (l := text.reverse)
      rw [rest, space] at whole
      simpa using (congrArg List.reverse whole).symm

theorem space_not_mem_of_beforeLastSpace? {text : List Char}
    (missing : beforeLastSpace? text = none) : ' ' ∉ text := by
  rw [beforeLastSpace?] at missing
  split at missing
  · next dropped =>
      intro member
      have other := List.dropWhile_eq_nil_iff.mp dropped ' ' (List.mem_reverse.mpr member)
      exact absurd other (by decide)
  · exact absurd missing (by simp)

/-- How a line is split off: the text fits as it is, or it is broken at a space right after
the line, or there is no space up to the limit and the line ends there. -/
inductive SplitsOff (limit : Nat) (text : List Char) : List Char → List Char → Prop where
  | whole (fits : text.length ≤ limit) : SplitsOff limit text text []
  | space {line rest : List Char} (broken : text = line ++ ' ' :: rest)
      (fits : line.length ≤ limit) :
      SplitsOff limit text (Text.trimEnd line) (Text.trimStart rest)
  | inWord (long : limit < text.length) (unspaced : ' ' ∉ text.take (limit + 1)) :
      SplitsOff limit text (text.take limit) (Text.trimStart (text.drop limit))

theorem splitsOff_splitLine (limit : Nat) (text : List Char) :
    SplitsOff limit text (splitLine limit text).1 (splitLine limit text).2 := by
  rw [splitLine]
  split
  · next fits => exact .whole fits
  · next long =>
      split
      · next line found =>
          obtain ⟨word, taken⟩ := eq_append_of_beforeLastSpace? found
          have broken : text = line ++ ' ' :: text.drop (line.length + 1) := by
            have whole := List.take_append_drop (limit + 1) text
            rw [taken] at whole
            rw [← whole]
            simp
          have counted := congrArg List.length taken
          have bound := List.length_take_le (limit + 1) text
          simp only [List.length_append, List.length_cons] at counted
          exact .space broken (by omega)
      · next missing => exact .inWord (by omega) (space_not_mem_of_beforeLastSpace? missing)

section

variable {limit : Nat} {text line rest : List Char}

theorem SplitsOff.isPrefix (splits : SplitsOff limit text line rest) : line <+: text := by
  cases splits with
  | whole fits => exact List.prefix_refl text
  | space broken fits => exact (Text.trimEnd_isPrefix _).trans ⟨_, broken.symm⟩
  | inWord long unspaced => exact List.take_prefix limit text

theorem SplitsOff.isSuffix (splits : SplitsOff limit text line rest) : rest <:+ text := by
  cases splits with
  | whole fits => exact List.nil_suffix
  | space broken fits =>
      rw [broken]
      exact ((Text.trimStart_isSuffix _).trans (List.suffix_cons ' ' _)).trans
        (List.suffix_append _ _)
  | inWord long unspaced => exact (Text.trimStart_isSuffix _).trans (List.drop_suffix limit text)

end

theorem splitLine_fst_isPrefix (limit : Nat) (text : List Char) :
    (splitLine limit text).1 <+: text :=
  (splitsOff_splitLine limit text).isPrefix

theorem splitLine_snd_isSuffix (limit : Nat) (text : List Char) :
    (splitLine limit text).2 <:+ text :=
  (splitsOff_splitLine limit text).isSuffix

theorem infix_of_mem_wrap {limit : Nat} {text line : List Char} (member : line ∈ wrap limit text) :
    line <:+: text := by
  fun_induction wrap limit text with
  | case1 => simp at member
  | case2 text more split ih =>
      rcases List.mem_cons.mp member with rfl | later
      · exact (splitLine_fst_isPrefix (limit + 1) text).isInfix
      · exact (ih later).trans (splitLine_snd_isSuffix (limit + 1) text).isInfix

/-! ## The end of a comment -/

def commentEnd : List Char := ['*', '/']

theorem not_commentEnd_of_slash_not_mem {text : List Char} (plain : '/' ∉ text) :
    ¬ commentEnd <:+: text := by
  intro closed
  exact plain (closed.subset (by decide))

theorem not_commentEnd_of_star_not_mem {text : List Char} (plain : '*' ∉ text) :
    ¬ commentEnd <:+: text := by
  intro closed
  exact plain (closed.subset (by decide))

/-- Two texts without the end of a comment can be joined unless the first one ends with
half of it and the second one starts with the other half. -/
theorem not_commentEnd_append {left right : List Char} (inLeft : ¬ commentEnd <:+: left)
    (inRight : ¬ commentEnd <:+: right)
    (apart : left.getLast? ≠ some '*' ∨ right.head? ≠ some '/') :
    ¬ commentEnd <:+: left ++ right := by
  induction left with
  | nil => exact inRight
  | cons c rest ih =>
      rw [List.cons_append, List.infix_cons_iff]
      rw [List.infix_cons_iff, not_or] at inLeft
      rintro (start | later)
      · cases rest with
        | nil =>
            cases right with
            | nil => exact inLeft.1 start
            | cons d more =>
                obtain ⟨star, slash⟩ := List.cons_prefix_cons.mp start
                have slash := (List.cons_prefix_cons.mp slash).1
                simp [← star, ← slash] at apart
        | cons d more =>
            obtain ⟨star, slash⟩ := List.cons_prefix_cons.mp start
            have slash := (List.cons_prefix_cons.mp slash).1
            exact inLeft.1 (by rw [← star, ← slash]; exact ⟨more, rfl⟩)
      · refine ih inLeft.2 ?_ later
        refine apart.imp_left fun ending => ?_
        cases rest with
        | nil => simp
        | cons d more => simpa using ending

theorem toList_escaped (text : String) : (escaped text).toList = escapeCommentEnd text.toList := by
  rw [escaped, String.toList_ofList]

theorem head?_escapeCommentEnd (text : List Char) :
    (escapeCommentEnd text).head? = text.head? := by
  fun_cases escapeCommentEnd text <;> rfl

theorem not_commentEnd_escapeCommentEnd (text : List Char) :
    ¬ commentEnd <:+: escapeCommentEnd text := by
  fun_induction escapeCommentEnd text with
  | case1 rest ih =>
      have escape : ¬ commentEnd <:+: ['*', '\\', '/'] := by decide
      exact not_commentEnd_append escape ih (.inl (by decide))
  | case2 c rest other ih =>
      have single : ¬ commentEnd <:+: [c] := fun closed =>
        absurd closed.length_le (by simp [commentEnd])
      refine not_commentEnd_append single ih ?_
      rw [head?_escapeCommentEnd]
      by_cases star : c = '*'
      · right
        intro slash
        obtain ⟨more, rfl⟩ := List.head?_eq_some_iff.mp slash
        exact other more star rfl
      · left
        simpa using star
  | case3 => decide

end Layout

/-! ## Lines of doc comments -/

namespace Layout.Listing

def Each (test : String → Prop) (listing : Listing) : Prop :=
  ∀ line ∈ listing.backwards, test line

variable {test : String → Prop} {listing : Listing}

theorem Each.append (each : listing.Each test) {line : String}
    (next : test (listing.margin.apply line)) : (listing.append line).Each test :=
  List.forall_mem_cons.mpr ⟨next, each⟩

theorem Each.appendAll (each : listing.Each test) {lines : List String}
    (next : ∀ line ∈ lines, test (listing.margin.apply line)) :
    (listing.appendAll lines).Each test := by
  induction lines generalizing listing with
  | nil => exact each
  | cons line rest ih =>
      have head := each.append (next line List.mem_cons_self)
      exact ih head fun later member => next later (List.mem_cons_of_mem _ member)

/-- The last line may lose what holds of the others when text is added to it. -/
theorem Each.inline {final : String → Prop} (each : listing.Each test) {content : String}
    (alone : ¬ listing.hasLine → final content)
    (joined : ∀ last, test last → final (last ++ content))
    (kept : ∀ line, test line → final line) : (listing.inline content).Each final := by
  obtain ⟨backwards, margin, width⟩ := listing
  cases backwards with
  | nil => exact List.forall_mem_singleton.mpr (alone fun started => started rfl)
  | cons last before =>
      obtain ⟨ending, others⟩ := List.forall_mem_cons.mp each
      exact List.forall_mem_cons.mpr
        ⟨joined last ending, fun line member => kept line (others line member)⟩

end Layout.Listing

def Slashless (line : String) : Prop :=
  '/' ∉ line.toList

def Unclosed (line : String) : Prop :=
  ¬ Layout.commentEnd <:+: line.toList

theorem slashless_empty : Slashless "" := by
  simp [Slashless]

theorem Slashless.append {left right : String} (inLeft : Slashless left)
    (inRight : Slashless right) : Slashless (left ++ right) := by
  simp only [Slashless, String.toList_append, List.mem_append, not_or]
  exact ⟨inLeft, inRight⟩

theorem Slashless.unclosed {line : String} (slashless : Slashless line) : Unclosed line :=
  Layout.not_commentEnd_of_slash_not_mem slashless

theorem Unclosed.append {left right : String} (inLeft : Unclosed left)
    (inRight : Unclosed right)
    (apart : left.toList.getLast? ≠ some '*' ∨ right.toList.head? ≠ some '/') :
    Unclosed (left ++ right) := by
  rw [Unclosed, String.toList_append]
  exact Layout.not_commentEnd_append inLeft inRight apart

theorem Unclosed.of_isInfix {line : String} (unclosed : Unclosed line) {piece : List Char}
    (inside : piece <:+: line.toList) : Unclosed (String.ofList piece) := by
  rw [Unclosed, String.toList_ofList]
  exact fun closed => unclosed (closed.trans inside)

theorem unclosed_escaped (text : String) : Unclosed (Layout.escaped text) := by
  rw [Unclosed, Layout.toList_escaped]
  exact Layout.not_commentEnd_escapeCommentEnd text.toList

theorem Unclosed.apply {margin : Margin} (start : Unclosed margin.text)
    (apart : margin.text.toList.getLast? ≠ some '*') {line : String}
    (unclosed : Unclosed line) : Unclosed (margin.apply line) := by
  rw [Margin.apply]
  split
  · exact slashless_empty.unclosed
  · exact start.append unclosed (.inl apart)

/-! ## Pieces of prose -/

namespace Layout

variable (room : Nat) (content : String)

theorem unclosed_splitLine_fst :
    Unclosed (String.ofList (splitLine room (escaped content).toList).1) :=
  (unclosed_escaped content).of_isInfix (splitLine_fst_isPrefix room _).isInfix

/-- A piece that starts with a slash is the start of a text that does. -/
theorem head?_splitLine_fst_ne (plain : content.toList.head? ≠ some '/') :
    (splitLine room (escaped content).toList).1.head? ≠ some '/' := by
  intro slash
  obtain ⟨later, split⟩ := splitLine_fst_isPrefix room (escaped content).toList
  have head := congrArg List.head? split
  rw [List.head?_append, slash, toList_escaped, head?_escapeCommentEnd] at head
  exact plain head.symm

/-- The lines of what is left of a text, with their hanging indent. -/
theorem unclosed_of_mem_wrap {limit : Nat} {line : List Char}
    (member : line ∈ wrap limit (splitLine room (escaped content).toList).2) (hanging : Nat) :
    Unclosed (spaces hanging ++ String.ofList line) := by
  have rest := (splitLine_snd_isSuffix room (escaped content).toList).isInfix
  have piece := (unclosed_escaped content).of_isInfix ((infix_of_mem_wrap member).trans rest)
  have indent : Slashless (spaces hanging) := by simp [Slashless, spaces]
  refine indent.unclosed.append piece (.inl ?_)
  simp [spaces, List.getLast?_replicate]

end Layout

/-- What a part of a doc comment is made of does not end the comment. Prose and remarks
may be anything. -/
def DocItem.Clean : DocItem → Prop
  | .prose _ => True
  | .line content => Unclosed content
  | .tag word type name _ =>
      Slashless word ∧ (∀ line ∈ type.lines, Slashless line) ∧ ∀ label ∈ name, Slashless label

section

open Layout Listing

variable {margin : Margin} (plain : Slashless margin.text)
  (apart : margin.text.toList.getLast? ≠ some '*')

include plain

theorem Slashless.apply {line : String} (slashless : Slashless line) :
    Slashless (margin.apply line) := by
  rw [Margin.apply]
  split
  · exact slashless_empty
  · exact plain.append slashless

theorem slashless_splice {listing : Listing} (same : listing.margin = margin)
    (each : listing.Each Slashless) {lines : List String}
    (slashless : ∀ line ∈ lines, Slashless line) : (listing.splice lines).Each Slashless := by
  cases lines with
  | nil => exact each
  | cons first rest =>
      obtain ⟨head, others⟩ := List.forall_mem_cons.mp slashless
      have joined := each.inline (fun _ => head) (fun last ending => ending.append head) fun _ => id
      apply joined.appendAll
      intro line member
      rw [margin_inline, same]
      exact Slashless.apply plain (others line member)

theorem DocItem.slashless_tagged {word : String} {type : TypeExpr} {name : Option String}
    (inWord : Slashless word) (inType : ∀ line ∈ type.lines, Slashless line)
    (inName : ∀ label ∈ name, Slashless label) (width : Nat) :
    (tagged word type name { margin, width }).Each Slashless := by
  have opening : Slashless ("@" ++ word ++ " \x7b") :=
    ((show Slashless "@" by simp [Slashless]).append inWord).append (by simp [Slashless])
  have closed : Slashless (closing name) := by
    cases name with
    | none => simp [Slashless, closing]
    | some label => exact (show Slashless "\x7d " by simp [Slashless]).append (inName label rfl)
  have start : Listing.Each Slashless { margin, width } := fun line member =>
    absurd member List.not_mem_nil
  have opened := start.append (Slashless.apply plain opening)
  have spliced := slashless_splice plain (margin_append _ _) opened inType
  exact spliced.inline (fun _ => closed) (fun last ending => ending.append closed) fun _ => id

include apart

theorem unclosed_wrapRest {listing : Listing} (same : listing.margin = margin)
    (each : listing.Each Unclosed) (room : Nat) (content : String) (hanging : Nat) :
    (listing.wrapRest (splitLine room (escaped content).toList).2 hanging).Each Unclosed := by
  refine each.appendAll fun line member => ?_
  obtain ⟨piece, found, rfl⟩ := List.mem_map.mp member
  rw [same]
  exact plain.unclosed.apply apart (unclosed_of_mem_wrap room content found hanging)

/-- A remark goes on in a line without a slash, and starts with a space there. -/
theorem unclosed_commentInline {listing : Listing} (same : listing.margin = margin)
    (each : listing.Each Slashless) (remark : String) (hanging : Nat) :
    (listing.commentInline (" " ++ remark) hanging).Each Unclosed := by
  simp only [commentInline, ← toList_escaped]
  generalize listing.width - (listing.backwards.head?.getD "").length = room
  have first := unclosed_splitLine_fst room (" " ++ remark)
  have space := head?_splitLine_fst_ne room (" " ++ remark) (by simp)
  apply unclosed_wrapRest plain apart (by simpa using same)
  refine Each.inline each (fun _ => first) ?_ fun line slashless => slashless.unclosed
  intro last slashless
  exact slashless.unclosed.append first (.inr (by rwa [String.toList_ofList]))

theorem DocItem.unclosed_lines {item : DocItem} (clean : item.Clean) (width : Nat) :
    ∀ line ∈ item.lines margin width, Unclosed line := by
  suffices each : (item.write { margin, width }).Each Unclosed by
    intro line member
    exact each line (List.mem_reverse.mp member)
  have empty (test : String → Prop) : Listing.Each test { margin, width } :=
    fun line member => nomatch member
  cases item with
  | prose content =>
      simp only [write, comment, ← toList_escaped]
      apply unclosed_wrapRest plain apart rfl
      apply (empty Unclosed).append
      exact plain.unclosed.apply apart (unclosed_splitLine_fst _ content)
  | line content => exact (empty Unclosed).append (plain.unclosed.apply apart clean)
  | tag word type name remark =>
      obtain ⟨inWord, inType, inName⟩ := clean
      have slashless := slashless_tagged plain inWord inType inName width
      rw [write_tag]
      cases remark with
      | none => exact fun line member => (slashless line member).unclosed
      | some remark =>
          exact unclosed_commentInline plain apart (by simp [tagged]) slashless remark hanging

end

end Externs
