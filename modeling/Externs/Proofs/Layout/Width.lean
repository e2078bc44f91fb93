import Externs.Proofs.Layout.Wrapped

/-!
# The width of wrapped prose

Lines of prose stay within the width of their listing if the margin and the hanging
indent leave room for a character. If they do not, a line has at most one character
after them. Lengths are counted in characters.
-/

set_option autoImplicit false

namespace Externs.Layout

/-- A line that is split off is not longer than its limit, and the space after the limit
is not part of it. -/
theorem SplitsOff.length_le {limit : Nat} {text line rest : List Char}
    (splits : SplitsOff limit text line rest) : line.length ≤ limit := by
  cases splits with
  | whole fits => exact fits
  | space broken fits => exact Nat.le_trans (Text.trimEnd_isPrefix _).length_le fits
  | inWord long unspaced => exact List.length_take_le limit text

theorem length_le_of_mem_wrap {limit : Nat} {text line : List Char}
    (member : line ∈ wrap limit text) : line.length ≤ limit + 1 := by
  fun_induction wrap limit text with
  | case1 => cases member
  | case2 text more split ih =>
      cases List.mem_cons.mp member with
      | inl first =>
          rw [first]
          exact (splitsOff_splitLine (limit + 1) text).length_le
      | inr later => exact ih later

theorem length_spaces (count : Nat) : (spaces count).length = count := by
  rw [spaces, String.length_ofList, List.length_replicate]

theorem Margin.length_apply_le (margin : Margin) (line : String) :
    (margin.apply line).length ≤ margin.text.length + line.length := by
  rw [Margin.apply]
  split
  · exact Nat.zero_le _
  · rw [String.length_append]

namespace Listing

variable (listing : Listing)

theorem length_prose_fst_le (room hanging : Nat) (content : String) :
    (listing.prose room hanging content).1.length ≤ room := by
  rw [prose, String.length_ofList]
  exact (splitsOff_splitLine room _).length_le

/-- A line after the first one ends within the width, or right after its first column. -/
theorem length_apply_le_of_mem_prose {room hanging : Nat} {content body : String}
    (member : body ∈ (listing.prose room hanging content).2) :
    (listing.margin.apply body).length ≤
      max listing.width (listing.margin.text.length + hanging + 1) := by
  obtain ⟨line, found, rfl⟩ := List.mem_map.mp member
  have fits := length_le_of_mem_wrap found
  have whole := listing.margin.length_apply_le (spaces hanging ++ String.ofList line)
  rw [String.length_append, length_spaces, String.length_ofList] at whole
  omega

/-- The lines of wrapped prose respect the width. A new line of prose is within it where
the margin leaves room; text in the last line makes this line no longer than it was or
than the width. -/
theorem prose_fits_width (content : String) (hanging : Nat) :
    (∃ added : List String,
      (listing.comment content).lines = listing.lines ++ added ∧
        ∀ line ∈ added,
          line.length ≤
            if listing.margin.text.length < listing.width then listing.width
            else listing.margin.text.length + 1) ∧
      ∃ (before : List String) (start first : String) (added : List String),
        (listing.lines = before ++ [start] ∨ listing.lines = [] ∧ before = [] ∧ start = "") ∧
          (listing.commentInline content hanging).lines = before ++ (start ++ first) :: added ∧
          (start ++ first).length ≤ max start.length listing.width ∧
          ∀ line ∈ added,
            line.length ≤ max listing.width (listing.margin.text.length + hanging + 1) := by
  constructor
  · refine ⟨_, listing.lines_comment content, List.forall_mem_map.mpr fun body member => ?_⟩
    cases List.mem_cons.mp member with
    | inl first =>
        rw [first]
        have whole := listing.margin.length_apply_le
          (listing.prose (listing.width - listing.margin.text.length) 0 content).1
        have fits := listing.length_prose_fst_le
          (listing.width - listing.margin.text.length) 0 content
        split <;> omega
    | inr later =>
        have fits := listing.length_apply_le_of_mem_prose later
        split <;> omega
  · obtain ⟨before, start, found, written⟩ := listing.exists_lines_commentInline content hanging
    refine ⟨before, start, _, _, found, written, ?_, ?_⟩
    · have fits := listing.length_prose_fst_le (listing.width - start.length) hanging content
      rw [String.length_append]
      omega
    · exact List.forall_mem_map.mpr fun body member =>
        listing.length_apply_le_of_mem_prose member

end Listing

end Externs.Layout
