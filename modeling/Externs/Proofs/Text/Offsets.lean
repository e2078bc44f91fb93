import Externs.Proofs.Text.Boundary
import Mathlib.Data.Prod.Lex

/-!
# Offsets of positions

The offset of a position finds back every place between two characters, stays on a
boundary of the text whatever the line and the column are, and grows with the position.
-/

set_option autoImplicit false

namespace Externs.Text

variable (text : List Char)

theorem IsBoundary.boundaryBelow_eq {text : List Char} {offset : Nat}
    (boundary : IsBoundary text offset) : boundaryBelow text offset = offset := by
  have reached := (isGreatest_boundaryBelow text offset).2 ⟨boundary, Nat.le_refl offset⟩
  exact Nat.le_antisymm (boundaryBelow_le text offset) reached

theorem boundaryBelow_mono : Monotone (boundaryBelow text) := by
  intro first second le
  have lower := (isGreatest_boundaryBelow text first).1
  exact (isGreatest_boundaryBelow text second).2 ⟨lower.1, Nat.le_trans lower.2 le⟩

theorem lineStart_mono : Monotone (lineStart text) := by
  apply monotone_nat_of_le_succ
  intro index
  cases found : (pieces text).drop index with
  | nil => rw [lineStart_of_drop_eq_nil found, lineStart_succ_of_drop_eq_nil found]
  | cons piece more =>
      rw [lineStart_succ_of_drop found]
      exact Nat.le_add_right _ _

namespace Position

/-- The way back from the line of a boundary and its column, counted from one. -/
theorem toOffset_of_isBoundary {text : List Char} {offset : Nat}
    (boundary : IsBoundary text offset) :
    ∃ start, StartsLine text (feedsBefore text offset + 1) start ∧ start ≤ offset ∧
      toOffset text ⟨feedsBefore text offset + 1, offset - start + 1⟩ = offset := by
  have starts : StartsLine text (feedsBefore text offset + 1)
      (lineStart text (feedsBefore text offset)) := startsLine_lineStart rfl
  have before : lineStart text (feedsBefore text offset) ≤ offset := starts.2 rfl
  have ends := le_lineStart_succ boundary.le_size rfl
  refine ⟨_, starts, before, ?_⟩
  rw [toOffset_succ, Nat.add_sub_cancel, Nat.add_sub_cancel' before, Nat.min_eq_left ends,
    boundary.boundaryBelow_eq]

theorem isBoundary_toOffset (position : Position) :
    IsBoundary text (position.toOffset text) := by
  rcases position with ⟨_ | index, column⟩
  · exact isBoundary_size text
  · rw [toOffset_succ]
    exact (isGreatest_boundaryBelow text _).1.1

theorem toOffset_mono {first second : Position} (counted : 1 ≤ first.line)
    (ordered : toLex (first.line, first.column) ≤ toLex (second.line, second.column)) :
    first.toOffset text ≤ second.toOffset text := by
  rcases first with ⟨_ | index, column⟩
  · exact absurd counted (by simp)
  rcases second with ⟨_ | later, other⟩
  · rcases Prod.Lex.toLex_le_toLex.mp ordered with lower | ⟨same, -⟩
    · exact absurd lower (Nat.not_lt_zero _)
    · exact absurd same (Nat.succ_ne_zero index)
  rw [toOffset_succ, toOffset_succ]
  apply boundaryBelow_mono
  rcases Prod.Lex.toLex_le_toLex.mp ordered with lower | ⟨same, le⟩
  · -- The end of an earlier line is not behind the start of a later one.
    have next : lineStart text (index + 1) ≤ lineStart text later :=
      lineStart_mono text (Nat.le_of_lt_succ lower)
    have longer : lineStart text later ≤ lineStart text (later + 1) :=
      lineStart_mono text (Nat.le_succ later)
    omega
  · obtain rfl : index = later := Nat.succ.inj same
    dsimp only at le
    omega

/-- A position and an offset are two ways to say where something stands. Offsets of lines
and columns that the text does not have are boundaries of the text too. -/
theorem toOffset_inverts_and_grows :
    (∀ offset, IsBoundary text offset →
      ∃ start, StartsLine text (feedsBefore text offset + 1) start ∧ start ≤ offset ∧
        toOffset text ⟨feedsBefore text offset + 1, offset - start + 1⟩ = offset) ∧
      (∀ position : Position,
        position.toOffset text ≤ size text ∧ IsBoundary text (position.toOffset text)) ∧
      ∀ first second : Position, 1 ≤ first.line →
        toLex (first.line, first.column) ≤ toLex (second.line, second.column) →
          first.toOffset text ≤ second.toOffset text := by
  refine ⟨fun offset boundary => toOffset_of_isBoundary boundary, fun position => ?_,
    fun first second counted ordered => toOffset_mono text counted ordered⟩
  have boundary := isBoundary_toOffset text position
  exact ⟨boundary.le_size, boundary⟩

/-- A wide character, an empty line, a character of four bytes and a final line feed. -/
def wideText : List Char := "é\n\n😀x\n".toList

theorem toOffset_inverts_and_grows_wideText :
    (∃ start, StartsLine wideText 3 start ∧ start ≤ 8 ∧
      toOffset wideText ⟨3, 8 - start + 1⟩ = 8) ∧
      (∃ start, StartsLine wideText 4 start ∧ start ≤ 10 ∧
        toOffset wideText ⟨4, 10 - start + 1⟩ = 10) ∧
      IsBoundary wideText (toOffset wideText ⟨3, 4⟩) ∧
      toOffset wideText ⟨1, 100⟩ ≤ toOffset wideText ⟨2, 0⟩ := by
  have facts := toOffset_inverts_and_grows wideText
  have inside : IsBoundary wideText 8 := ⟨"é\n\n😀".toList, by decide, by decide⟩
  have atEnd : IsBoundary wideText 10 := ⟨wideText, by decide, by decide⟩
  exact ⟨facts.1 8 inside, facts.1 10 atEnd, (facts.2.1 ⟨3, 4⟩).2,
    facts.2.2 ⟨1, 100⟩ ⟨2, 0⟩ (by decide) (by decide)⟩

end Position

end Externs.Text
