import Externs.Proofs.Json.Token
import Externs.Proofs.Outcome
import Externs.Proofs.Text.Boundary

/-!
# Blanked text

Blanking the comments of a text a second time changes nothing, because no comment and no
string can start where none started before. The blanked text has its line feeds, and all
boundaries of the source, at the same bytes.
-/

set_option autoImplicit false

namespace Externs.Comment

open Json (Scans scans_code scans_quoted scans_escape scans_plain blank_cover)
open Outcome (map_eq_ok)

/-! ## Blanking again -/

/-- The mode in which what was left in a mode is scanned again: comments are gone. -/
def Mode.again : Mode → Mode
  | .quoted => .quoted
  | .code | .line | .block _ => .code

theorem scans_cover (c : Char) : Scans .code (cover c) (cover c) .code := by
  apply scans_plain
  intro d member
  have space := blank_cover c d member
  constructor <;> rintro rfl <;> exact absurd space (by decide)

theorem scan_eq_ok_of_scans {start stop : Mode} {text rest : List Char}
    (scans : Scans start text text stop) (scanned : scan stop rest = .ok rest) :
    scan start (text ++ rest) = .ok (text ++ rest) := by
  rw [scans rest, scanned]
  rfl

/-- Blanking leaves the first character alone, unless a comment starts there. -/
theorem head?_of_scan {source text : List Char} (scanned : scan .code source = .ok text)
    (noSlash : source.head? ≠ some '/') : text.head? = source.head? := by
  cases source with
  | nil =>
      cases scanned
      rfl
  | cons c rest =>
      have different : c ≠ '/' := fun same => noSlash (congrArg some same)
      by_cases quote : c = '"'
      · subst quote
        rw [scan] at scanned
        obtain ⟨text, -, rfl⟩ := map_eq_ok scanned
        rfl
      · have scans := scans_code quote different rest
        rw [List.singleton_append] at scans
        rw [scans] at scanned
        obtain ⟨text, -, rfl⟩ := map_eq_ok scanned
        rfl

/-- A slash that opened no comment still opens none. -/
theorem scan_cons {c : Char} {rest text : List Char} (noQuote : c ≠ '"')
    (noLine : ∀ later, c = '/' → rest = '/' :: later → False)
    (noBlock : ∀ later, c = '/' → rest = '*' :: later → False)
    (scanned : scan .code rest = .ok text) (again : scan .code text = .ok text) :
    scan .code (c :: text) = .ok (c :: text) := by
  have kept (slash : c = '/') : text.head? = rest.head? := by
    apply head?_of_scan scanned
    intro opened
    obtain ⟨later, same⟩ := List.head?_eq_some_iff.mp opened
    exact noLine later slash same
  rw [scan, again]
  · rfl
  · exact noQuote
  · intro later slash same
    have opened : rest.head? = some '/' := by rw [← kept slash, same, List.head?_cons]
    obtain ⟨later, same⟩ := List.head?_eq_some_iff.mp opened
    exact noLine later slash same
  · intro later slash same
    have opened : rest.head? = some '*' := by rw [← kept slash, same, List.head?_cons]
    obtain ⟨later, same⟩ := List.head?_eq_some_iff.mp opened
    exact noBlock later slash same

theorem scan_scan {mode : Mode} {source text : List Char} (scanned : scan mode source = .ok text) :
    scan mode.again text = .ok text := by
  have spaces : Scans .code [' ', ' '] [' ', ' '] .code := scans_plain (by simp)
  fun_induction scan mode source generalizing text with
  | case1 opener => exact nomatch scanned
  | case2 mode =>
      cases scanned
      cases mode <;> rfl
  | case3 rest ih =>
      obtain ⟨text, found, rfl⟩ := map_eq_ok scanned
      have inside : scan .quoted text = .ok text := ih found
      rw [Mode.again, scan_openQuote, inside]
      rfl
  | case4 rest ih =>
      obtain ⟨text, found, rfl⟩ := map_eq_ok scanned
      exact scan_eq_ok_of_scans spaces (ih found)
  | case5 rest ih =>
      obtain ⟨text, found, rfl⟩ := map_eq_ok scanned
      exact scan_eq_ok_of_scans spaces (ih found)
  | case6 c rest noQuote noLine noBlock ih =>
      obtain ⟨text, found, rfl⟩ := map_eq_ok scanned
      exact scan_cons noQuote noLine noBlock found (ih found)
  | case7 c rest ih =>
      obtain ⟨text, found, rfl⟩ := map_eq_ok scanned
      exact scan_eq_ok_of_scans (scans_escape c) (ih found)
  | case8 rest ih =>
      obtain ⟨text, found, rfl⟩ := map_eq_ok scanned
      have outside : scan .code text = .ok text := ih found
      rw [Mode.again, scan_closeQuote, outside]
      rfl
  | case9 c rest noEscape noQuote ih =>
      obtain ⟨text, found, rfl⟩ := map_eq_ok scanned
      by_cases escape : c = '\\'
      · -- a backslash that protects nothing is the last character
        cases rest with
        | nil =>
            cases found
            subst escape
            rfl
        | cons d later => exact (noEscape d later escape rfl).elim
      · exact scan_eq_ok_of_scans (scans_quoted noQuote escape) (ih found)
  | case10 rest ih =>
      obtain ⟨text, found, rfl⟩ := map_eq_ok scanned
      exact scan_eq_ok_of_scans (scans_code (by decide) (by decide)) (ih found)
  | case11 c rest noFeed ih =>
      obtain ⟨text, found, rfl⟩ := map_eq_ok scanned
      exact scan_eq_ok_of_scans (scans_cover c) (ih found)
  | case12 opener rest ih =>
      obtain ⟨text, found, rfl⟩ := map_eq_ok scanned
      exact scan_eq_ok_of_scans spaces (ih found)
  | case13 opener c rest unclosed ih =>
      obtain ⟨text, found, rfl⟩ := map_eq_ok scanned
      exact scan_eq_ok_of_scans (scans_cover c) (ih found)

theorem scan_of_blank {source text : String} (blanked : blank source = .ok text) :
    scan .code source.toList = .ok text.toList := by
  rw [blank] at blanked
  cases scanned : scan .code source.toList with
  | error opener =>
      rw [scanned] at blanked
      exact nomatch blanked
  | ok found =>
      rw [scanned] at blanked
      obtain rfl : String.ofList found = text := Except.ok.inj blanked
      rw [String.toList_ofList]

theorem blank_blank {source text : String} (blanked : blank source = .ok text) :
    blank text = .ok text := by
  have again : scan .code text.toList = .ok text.toList := scan_scan (scan_of_blank blanked)
  rw [blank, again]
  exact congrArg Except.ok String.ofList_toList

/-! ## What stays in its place -/

/-- The text is the source with some of its characters overwritten. -/
inductive Covers : List Char → List Char → Prop
  | nil : Covers [] []
  | keep (c : Char) {source text : List Char} (rest : Covers source text) :
      Covers (c :: source) (c :: text)
  | overwrite (c : Char) {source text : List Char} (rest : Covers source text) :
      Covers (c :: source) (cover c ++ text)

theorem covers_scan {mode : Mode} {source text : List Char}
    (scanned : scan mode source = .ok text) : Covers source text := by
  fun_induction scan mode source generalizing text with
  | case1 opener => exact nomatch scanned
  | case2 mode =>
      cases scanned
      exact .nil
  | case3 rest ih | case6 c rest _ _ _ ih | case8 rest ih | case9 c rest _ _ ih | case10 rest ih =>
      obtain ⟨text, found, rfl⟩ := map_eq_ok scanned
      exact .keep _ (ih found)
  | case7 c rest ih =>
      obtain ⟨text, found, rfl⟩ := map_eq_ok scanned
      exact .keep '\\' (.keep c (ih found))
  | case4 rest ih =>
      obtain ⟨text, found, rfl⟩ := map_eq_ok scanned
      exact .overwrite '/' (.overwrite '/' (ih found))
  | case5 rest ih =>
      obtain ⟨text, found, rfl⟩ := map_eq_ok scanned
      exact .overwrite '/' (.overwrite '*' (ih found))
  | case11 c rest _ ih | case13 opener c rest _ ih =>
      obtain ⟨text, found, rfl⟩ := map_eq_ok scanned
      exact .overwrite c (ih found)
  | case12 opener rest ih =>
      obtain ⟨text, found, rfl⟩ := map_eq_ok scanned
      exact .overwrite '*' (.overwrite '/' (ih found))

open Text (size size_cons size_append IsBoundary isBoundary_zero isBoundary_cons_iff feedsBefore
  feedsBefore_add feedsBefore_zero)

theorem Covers.size_eq {source text : List Char} (covers : Covers source text) :
    size text = size source := by
  induction covers with
  | nil => rfl
  | keep c _ ih => rw [size_cons, size_cons, ih]
  | overwrite c _ ih => rw [size_append, size_cons, size_cover, ih]

theorem Covers.isBoundary {source text : List Char} (covers : Covers source text) {offset : Nat}
    (boundary : IsBoundary source offset) : IsBoundary text offset := by
  induction covers generalizing offset with
  | nil => exact boundary
  | keep c _ ih =>
      obtain rfl | ⟨behind, inRest, rfl⟩ := isBoundary_cons_iff.mp boundary
      · exact isBoundary_zero _
      · exact isBoundary_cons_iff.mpr (.inr ⟨behind, ih inRest, rfl⟩)
  | overwrite c _ ih =>
      obtain rfl | ⟨behind, inRest, rfl⟩ := isBoundary_cons_iff.mp boundary
      · exact isBoundary_zero _
      · obtain ⟨front, within, rfl⟩ := ih inRest
        exact ⟨cover c ++ front, (List.prefix_append_right_inj _).mpr within,
          by rw [size_append, size_cover]⟩

theorem feedsBefore_spaces (count : Nat) (text : List Char) (offset : Nat) :
    feedsBefore (List.replicate count ' ' ++ text) offset =
      if offset < count then 0 else feedsBefore text (offset - count) := by
  induction count generalizing offset with
  | zero => simp
  | succ count ih =>
      rw [List.replicate_succ, List.cons_append]
      cases offset with
      | zero => rw [feedsBefore_zero, if_pos (Nat.succ_pos count)]
      | succ offset =>
          have step := feedsBefore_add ' ' (List.replicate count ' ' ++ text) offset
          have single : ' '.utf8Size + offset = offset + 1 := Nat.add_comm 1 offset
          rw [single, if_neg (by decide), Nat.zero_add, ih] at step
          rw [step, Nat.add_sub_add_right]
          simp only [Nat.add_lt_add_iff_right]

theorem Covers.feedsBefore_eq {source text : List Char} (covers : Covers source text)
    (offset : Nat) : feedsBefore text offset = feedsBefore source offset := by
  induction covers generalizing offset with
  | nil => rfl
  | keep c _ ih => rw [feedsBefore, feedsBefore, ih]
  | overwrite c _ ih =>
      rw [cover]
      split
      · next feed =>
          subst feed
          rw [List.singleton_append, feedsBefore, feedsBefore, ih]
      · next noFeed =>
          rw [feedsBefore_spaces, feedsBefore, if_neg noFeed, ih, Nat.zero_add]

/-- What a position marks in the blanked text, it marks in the source. -/
theorem Covers.marks {source text : List Char} (covers : Covers source text)
    {position : Text.Position} {offset : Nat} (marks : position.Marks text offset) :
    position.Marks source offset := by
  have same : feedsBefore text = feedsBefore source := funext covers.feedsBefore_eq
  obtain ⟨inside, line, start, starts, column⟩ := marks
  rw [covers.size_eq] at inside
  rw [same] at line
  rw [Text.StartsLine, same] at starts
  exact ⟨inside, line, start, starts, column⟩

/-- The source shows a position at the boundary below the place where the blanked text
shows it. -/
theorem Covers.isGreatest_toOffset {source text : List Char} (covers : Covers source text)
    {position : Text.Position} {offset : Nat} (marks : position.Marks text offset) :
    IsGreatest {boundary | IsBoundary source boundary ∧ boundary ≤ position.toOffset text}
      (position.toOffset source) := by
  obtain ⟨start, starts, -, inText⟩ := marks.toOffset_eq
  obtain ⟨other, otherStarts, -, inSource⟩ := (covers.marks marks).toOffset_eq
  have same : feedsBefore text = feedsBefore source := funext covers.feedsBefore_eq
  rw [Text.StartsLine, same] at starts
  obtain rfl : other = start := otherStarts.unique starts
  obtain ⟨⟨boundary, below⟩, greatest⟩ :=
    Text.isGreatest_boundaryBelow source (other + (position.column - 1))
  obtain ⟨⟨-, textBelow⟩, textGreatest⟩ :=
    Text.isGreatest_boundaryBelow text (other + (position.column - 1))
  rw [inText, inSource]
  refine ⟨⟨boundary, textGreatest ⟨covers.isBoundary boundary, below⟩⟩, ?_⟩
  rintro candidate ⟨between, under⟩
  exact greatest ⟨between, Nat.le_trans under textBelow⟩

end Externs.Comment
