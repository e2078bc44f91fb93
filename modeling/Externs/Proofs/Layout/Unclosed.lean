import Externs.Proofs.Layout.Wrapped

/-!
# Wrapped prose stays inside of its comment

The end of a comment is taken out of a text once, before the text is cut, trimmed and put
behind margins, indents and a line that is there already. None of these joins brings back
what was taken out.
-/

set_option autoImplicit false

namespace Externs.Layout

/-! ## Escaped texts -/

theorem escapeCommentEnd_of_unclosed {text : List Char} (unclosed : ¬commentEnd <:+: text) :
    escapeCommentEnd text = text := by
  fun_induction escapeCommentEnd text with
  | case1 rest ih =>
      have closed : commentEnd <:+: '*' :: '/' :: rest := ⟨[], rest, rfl⟩
      exact absurd closed unclosed
  | case2 c rest other ih =>
      have later : ¬commentEnd <:+: rest := fun closed => unclosed (List.infix_cons closed)
      rw [ih later]
  | case3 => rfl

theorem escaped_escaped (content : String) : escaped (escaped content) = escaped content := by
  have unclosed := unclosed_escaped content
  rw [escaped, escapeCommentEnd_of_unclosed unclosed, String.ofList_toList]

/-! ## Lines of prose -/

theorem Margin.unclosed_text {margin : Margin} (marks : Unclosed (String.join margin.marks)) :
    Unclosed margin.text := by
  have indent : Slashless (spaces margin.indent) := by simp [Slashless, spaces]
  refine marks.append indent.unclosed (.inr ?_)
  simp [spaces, List.head?_replicate]

namespace Listing

variable (listing : Listing)

theorem unclosed_of_mem_prose {room hanging : Nat} {content body : String}
    (member : body ∈ (listing.prose room hanging content).2) : Unclosed body := by
  obtain ⟨line, found, rfl⟩ := List.mem_map.mp member
  exact unclosed_of_mem_wrap room content found hanging

theorem lines_commentInline {before : List String} {last : String}
    (ends : listing.lines = before ++ [last] ∨ listing.lines = [] ∧ before = [] ∧ last = "")
    (content : String) (hanging : Nat) :
    (listing.commentInline content hanging).lines =
      before ++ (last ++ (listing.prose (listing.width - last.length) hanging content).1) ::
        (listing.prose (listing.width - last.length) hanging content).2.map
          listing.margin.apply := by
  obtain ⟨earlier, start, found, written⟩ := listing.exists_lines_commentInline content hanging
  obtain ⟨rfl, rfl⟩ := start_unique ends found
  exact written

/-- No line of prose has the end of a comment in it, neither a new one nor the one that
the text goes on in, unless the margin or that line brings it, or that line brings its star
and the text its slash. The marks of the margin are taken together, as they are written. -/
theorem prose_leaves_comment_open (content : String) (hanging : Nat)
    (marks : Unclosed (String.join listing.margin.marks))
    (start : listing.margin.text = "" ∨ listing.margin.text.toList.getLast? = some ' ') :
    (∃ added : List String,
      (listing.comment content).lines = listing.lines ++ added ∧ ∀ line ∈ added, Unclosed line) ∧
      (∀ (before : List String) (last : String),
        (listing.lines = before ++ [last] ∨ listing.lines = [] ∧ before = [] ∧ last = "") →
        Unclosed last → last.toList.getLast? ≠ some '*' ∨ content.toList.head? ≠ some '/' →
          ∃ (first : String) (added : List String),
            (listing.commentInline content hanging).lines = before ++ (last ++ first) :: added ∧
              ∀ line ∈ (last ++ first) :: added, Unclosed line) ∧
      Unclosed (escaped content) ∧ escaped (escaped content) = escaped content := by
  have apart : listing.margin.text.toList.getLast? ≠ some '*' := by
    rcases start with empty | space
    · simp [empty]
    · simp [space]
  have applied {body : String} (unclosed : Unclosed body) : Unclosed (listing.margin.apply body) :=
    (Margin.unclosed_text marks).apply apart unclosed
  refine ⟨?_, ?_, unclosed_escaped content, escaped_escaped content⟩
  · refine ⟨_, listing.lines_comment content, List.forall_mem_map.mpr fun body member => ?_⟩
    apply applied
    rcases List.mem_cons.mp member with rfl | later
    · exact unclosed_splitLine_fst _ content
    · exact listing.unclosed_of_mem_prose later
  · intro before last ends unclosed joint
    refine ⟨_, _, listing.lines_commentInline ends content hanging, ?_⟩
    refine List.forall_mem_cons.mpr ⟨?_, List.forall_mem_map.mpr fun body member => ?_⟩
    · apply unclosed.append (unclosed_splitLine_fst _ content)
      refine joint.imp_right fun plain => ?_
      rw [String.toList_ofList]
      exact head?_splitLine_fst_ne _ content plain
    · exact applied (listing.unclosed_of_mem_prose member)

/-- A line that ends with a star, and hardly any room after it. -/
def starredListing : Listing :=
  { backwards := [" * @see *"], margin := { marks := [" * "] }, width := 11 }

theorem prose_leaves_comment_open_starredListing :
    (∃ added : List String,
      (starredListing.comment "*/*/ **/ /").lines = starredListing.lines ++ added ∧
        ∀ line ∈ added, Unclosed line) ∧
      ∃ (first : String) (added : List String),
        (starredListing.commentInline "*/*/ **/ /" 2).lines = (" * @see *" ++ first) :: added ∧
          ∀ line ∈ (" * @see *" ++ first) :: added, Unclosed line := by
  have mark : Slashless " * " := by simp [Slashless]
  have line : Slashless " * @see *" := by simp [Slashless]
  have facts := starredListing.prose_leaves_comment_open "*/*/ **/ /" 2 mark.unclosed
    (.inr (by decide))
  exact ⟨facts.1, facts.2.1 [] " * @see *" (.inl rfl) line.unclosed (.inr (by decide))⟩

end Listing

end Externs.Layout
