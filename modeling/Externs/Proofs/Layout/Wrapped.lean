import Externs.Proofs.Layout.Ink

/-!
# Wrapped prose

Prose ends after finitely many lines, which are added behind the lines that are there or
go on in the last of them. Together they have the ink of the text, for any margin, any
width and any hanging indent.
-/

set_option autoImplicit false

namespace Externs.Layout

/-- Every line takes something off the text. -/
theorem length_wrap_le (limit : Nat) (text : List Char) :
    (wrap limit text).length ≤ text.length := by
  fun_induction wrap limit text with
  | case1 => exact Nat.le_refl 0
  | case2 text more split ih =>
      have shorter : split.2.length < text.length :=
        length_splitLine_snd_lt (Nat.succ_pos limit) more
      exact Nat.succ_le_of_lt (Nat.lt_of_le_of_lt ih shorter)

namespace Listing

variable (listing : Listing)

/-- The lines of what is left of a text, without their margin. -/
def restBodies (rest : List Char) (hanging : Nat) : List String :=
  (wrap (listing.width - (listing.margin.text.length + hanging) - 1) rest).map fun line =>
    spaces hanging ++ String.ofList line

theorem lines_wrapRest (rest : List Char) (hanging : Nat) :
    (listing.wrapRest rest hanging).lines =
      listing.lines ++ (listing.restBodies rest hanging).map listing.margin.apply :=
  lines_appendAll _ listing

/-- The part of a text that goes into a first line with the given room, and the lines of
what is left of it, all without their margin. -/
def prose (room hanging : Nat) (content : String) : String × List String :=
  let split := splitLine room (escaped content).toList
  (String.ofList split.1, listing.restBodies split.2 hanging)

theorem length_prose_snd_le (room hanging : Nat) (content : String) :
    (listing.prose room hanging content).2.length ≤ (escaped content).toList.length := by
  simp only [prose, restBodies, List.length_map]
  have suffix := splitLine_snd_isSuffix room (escaped content).toList
  exact Nat.le_trans (length_wrap_le _ _) suffix.length_le

theorem ink_prose (room hanging : Nat) (content : String) :
    (Text.ink (listing.prose room hanging content).1.toList ++
        (listing.prose room hanging content).2.flatMap fun body => Text.ink body.toList) =
      Text.ink (escaped content).toList := by
  simp only [prose, restBodies]
  rw [flatMap_ink_hanging, ink_wrap, String.toList_ofList, ink_splitLine]

theorem lines_comment (content : String) :
    (listing.comment content).lines =
      listing.lines ++
        ((listing.prose (listing.width - listing.margin.text.length) 0 content).1 ::
          (listing.prose (listing.width - listing.margin.text.length) 0 content).2).map
            listing.margin.apply := by
  simp only [prose, escaped, String.toList_ofList]
  let split := splitLine (listing.width - listing.margin.text.length)
    (escapeCommentEnd content.toList)
  have later := lines_wrapRest (listing.append (String.ofList split.1)) split.2 0
  rw [lines_append, List.append_assoc] at later
  exact later

/-- There is one line only in which text can go on. -/
theorem start_unique {lines before earlier : List String} {last start : String}
    (ends : lines = before ++ [last] ∨ lines = [] ∧ before = [] ∧ last = "")
    (found : lines = earlier ++ [start] ∨ lines = [] ∧ earlier = [] ∧ start = "") :
    before = earlier ∧ last = start := by
  rcases ends with ends | ⟨none, rfl, rfl⟩
  · rcases found with found | ⟨none, -⟩
    · obtain ⟨rfl, single⟩ := List.append_inj' (ends.symm.trans found) rfl
      exact ⟨rfl, List.singleton_inj.mp single⟩
    · simp [none] at ends
  · rcases found with found | ⟨-, rfl, rfl⟩
    · simp [none] at found
    · exact ⟨rfl, rfl⟩

/-- The line that inline text goes on in, and the lines before it. -/
theorem exists_start_inline :
    ∃ before start,
      (listing.lines = before ++ [start] ∨ listing.lines = [] ∧ before = [] ∧ start = "") ∧
        listing.backwards.head?.getD "" = start ∧
        ∀ content, (listing.inline content).lines = before ++ [start ++ content] := by
  obtain ⟨backwards, margin, width⟩ := listing
  cases backwards with
  | nil => exact ⟨[], "", .inr ⟨rfl, rfl, rfl⟩, rfl, by simp [lines, inline]⟩
  | cons last earlier =>
      refine ⟨earlier.reverse, last, .inl ?_, rfl, ?_⟩
      · simp [lines]
      · simp [lines, inline]

theorem exists_lines_commentInline (content : String) (hanging : Nat) :
    ∃ before start,
      (listing.lines = before ++ [start] ∨ listing.lines = [] ∧ before = [] ∧ start = "") ∧
        (listing.commentInline content hanging).lines =
          before ++ (start ++ (listing.prose (listing.width - start.length) hanging content).1) ::
            (listing.prose (listing.width - start.length) hanging content).2.map
              listing.margin.apply := by
  obtain ⟨before, start, found, last, extended⟩ := listing.exists_start_inline
  refine ⟨before, start, found, ?_⟩
  simp only [commentInline, last, prose, escaped, String.toList_ofList]
  let split := splitLine (listing.width - start.length) (escapeCommentEnd content.toList)
  have later := lines_wrapRest (listing.inline (String.ofList split.1)) split.2 hanging
  rw [extended, List.append_assoc] at later
  exact later

/-- A new line and the lines that it is wrapped into. -/
theorem exists_bodies_comment (content : String) :
    ∃ bodies : List String,
      (listing.comment content).lines = listing.lines ++ bodies.map listing.margin.apply ∧
        bodies.length ≤ (escaped content).toList.length + 1 ∧
        (bodies.flatMap fun body => Text.ink body.toList) = Text.ink (escaped content).toList :=
  ⟨_, listing.lines_comment content, Nat.succ_le_succ (listing.length_prose_snd_le _ 0 content),
    listing.ink_prose _ 0 content⟩

/-- Text in the last line and the lines that the rest is wrapped into. -/
theorem exists_bodies_commentInline (content : String) (hanging : Nat) :
    ∃ (before : List String) (start first : String) (bodies : List String),
      (listing.lines = before ++ [start] ∨ listing.lines = [] ∧ before = [] ∧ start = "") ∧
        (listing.commentInline content hanging).lines =
          before ++ (start ++ first) :: bodies.map listing.margin.apply ∧
        bodies.length ≤ (escaped content).toList.length ∧
        (Text.ink first.toList ++ bodies.flatMap fun body => Text.ink body.toList) =
          Text.ink (escaped content).toList := by
  obtain ⟨before, start, found, written⟩ := listing.exists_lines_commentInline content hanging
  exact ⟨before, start, _, _, found, written, listing.length_prose_snd_le _ hanging content,
    listing.ink_prose _ hanging content⟩

/-- Wrapping prose ends, changes no line but at most the end of the last one, and loses,
repeats or moves nothing but blanks. New lines get the margin, unless they are empty. -/
theorem prose_keeps_ink (content : String) (hanging : Nat) :
    (∃ bodies : List String,
      (listing.comment content).lines = listing.lines ++ bodies.map listing.margin.apply ∧
        bodies.length ≤ (escaped content).toList.length + 1 ∧
        (bodies.flatMap fun body => Text.ink body.toList) = Text.ink (escaped content).toList) ∧
      ∃ (before : List String) (start first : String) (bodies : List String),
        (listing.lines = before ++ [start] ∨ listing.lines = [] ∧ before = [] ∧ start = "") ∧
          (listing.commentInline content hanging).lines =
            before ++ (start ++ first) :: bodies.map listing.margin.apply ∧
          bodies.length ≤ (escaped content).toList.length ∧
          (Text.ink first.toList ++ bodies.flatMap fun body => Text.ink body.toList) =
            Text.ink (escaped content).toList :=
  ⟨listing.exists_bodies_comment content, listing.exists_bodies_commentInline content hanging⟩

end Listing

end Externs.Layout
