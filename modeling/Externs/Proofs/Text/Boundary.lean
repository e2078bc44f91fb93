import Externs.Text.Position
import Mathlib.Order.Bounds.Basic

/-!
# Boundaries and lines

What the places of a text have to do with its characters and lines: which offsets lie
between two characters, how many line feeds stand in front of an offset, and where a
line starts. Positions are read off an offset and turned back into one in these terms.
-/

set_option autoImplicit false

namespace Externs.Text

/-! ## Boundaries -/

/-- An offset with whole characters in front of it. -/
def IsBoundary (text : List Char) (offset : Nat) : Prop :=
  ∃ front, front <+: text ∧ size front = offset

theorem IsBoundary.le_size {text : List Char} {offset : Nat} (boundary : IsBoundary text offset) :
    offset ≤ size text := by
  obtain ⟨front, ⟨back, rfl⟩, rfl⟩ := boundary
  rw [size_append]
  exact Nat.le_add_right _ _

theorem isBoundary_zero (text : List Char) : IsBoundary text 0 :=
  ⟨[], List.nil_prefix, rfl⟩

theorem isBoundary_cons_iff {c : Char} {rest : List Char} {offset : Nat} :
    IsBoundary (c :: rest) offset ↔
      offset = 0 ∨ ∃ behind, IsBoundary rest behind ∧ offset = c.utf8Size + behind := by
  constructor
  · rintro ⟨front, within, rfl⟩
    cases front with
    | nil => exact .inl rfl
    | cons d front =>
        obtain ⟨rfl, inRest⟩ := List.cons_prefix_cons.mp within
        exact .inr ⟨size front, ⟨front, inRest, rfl⟩, rfl⟩
  · rintro (rfl | ⟨_, ⟨front, within, rfl⟩, rfl⟩)
    · exact isBoundary_zero _
    · exact ⟨c :: front, List.cons_prefix_cons.mpr ⟨rfl, within⟩, rfl⟩

theorem isGreatest_boundaryBelow (text : List Char) (offset : Nat) :
    IsGreatest {boundary | IsBoundary text boundary ∧ boundary ≤ offset}
      (boundaryBelow text offset) := by
  refine ⟨⟨?_, boundaryBelow_le text offset⟩, ?_⟩
  · induction text generalizing offset with
    | nil => exact isBoundary_zero []
    | cons c rest ih =>
        rw [boundaryBelow]
        split
        · exact isBoundary_zero _
        · exact isBoundary_cons_iff.mpr (.inr ⟨_, ih _, rfl⟩)
  · induction text generalizing offset with
    | nil =>
        rintro _ ⟨⟨front, within, rfl⟩, -⟩
        rw [List.prefix_nil.mp within]
        exact Nat.le_refl 0
    | cons c rest ih =>
        rintro boundary ⟨between, below⟩
        obtain rfl | ⟨behind, inRest, rfl⟩ := isBoundary_cons_iff.mp between
        · exact Nat.zero_le _
        · have reached : ¬offset < c.utf8Size := by omega
          have bounded : behind ≤ boundaryBelow rest (offset - c.utf8Size) :=
            ih _ ⟨inRest, by omega⟩
          rw [boundaryBelow, if_neg reached]
          omega

theorem isBoundary_size (text : List Char) : IsBoundary text (size text) :=
  ⟨text, List.prefix_rfl, rfl⟩

theorem boundaryBelow_of_size_le {text : List Char} {offset : Nat} (past : size text ≤ offset) :
    boundaryBelow text offset = size text := by
  obtain ⟨⟨boundary, -⟩, greatest⟩ := isGreatest_boundaryBelow text offset
  exact Nat.le_antisymm boundary.le_size (greatest ⟨isBoundary_size text, past⟩)

/-! ## Line feeds in front of an offset -/

/-- The number of line feeds in the first `offset` bytes of a text. -/
def feedsBefore : List Char → Nat → Nat
  | [], _ => 0
  | c :: rest, offset =>
      if offset < c.utf8Size then 0
      else (if c = '\n' then 1 else 0) + feedsBefore rest (offset - c.utf8Size)

theorem feedsBefore_of_lt {c : Char} {rest : List Char} {offset : Nat}
    (inside : offset < c.utf8Size) : feedsBefore (c :: rest) offset = 0 := by
  rw [feedsBefore, if_pos inside]

@[simp]
theorem feedsBefore_add (c : Char) (rest : List Char) (offset : Nat) :
    feedsBefore (c :: rest) (c.utf8Size + offset) =
      (if c = '\n' then 1 else 0) + feedsBefore rest offset := by
  rw [feedsBefore, if_neg (by omega), Nat.add_sub_cancel_left]

@[simp]
theorem feedsBefore_zero (text : List Char) : feedsBefore text 0 = 0 := by
  cases text with
  | nil => rfl
  | cons c rest => exact feedsBefore_of_lt c.utf8Size_pos

/-- An offset lies inside of the first character or behind it. -/
theorem lt_or_exists_add (c : Char) (offset : Nat) :
    offset < c.utf8Size ∨ ∃ behind, offset = c.utf8Size + behind := by
  by_cases inside : offset < c.utf8Size
  · exact .inl inside
  · exact .inr ⟨offset - c.utf8Size, by omega⟩

theorem feedsBefore_mono (text : List Char) {first second : Nat} (le : first ≤ second) :
    feedsBefore text first ≤ feedsBefore text second := by
  induction text generalizing first second with
  | nil => exact Nat.le_refl 0
  | cons c rest ih =>
      obtain inside | ⟨first, rfl⟩ := lt_or_exists_add c first
      · rw [feedsBefore_of_lt inside]
        exact Nat.zero_le _
      · obtain ⟨second, rfl⟩ : ∃ behind, second = c.utf8Size + behind :=
          ⟨second - c.utf8Size, by omega⟩
        rw [feedsBefore_add, feedsBefore_add]
        exact Nat.add_le_add_left (ih (by omega)) _

/-- A line feed is one byte, so none is lost on the way down to a boundary. -/
theorem feedsBefore_boundaryBelow (text : List Char) (offset : Nat) :
    feedsBefore text (boundaryBelow text offset) = feedsBefore text offset := by
  induction text generalizing offset with
  | nil => rfl
  | cons c rest ih =>
      obtain inside | ⟨offset, rfl⟩ := lt_or_exists_add c offset
      · rw [boundaryBelow, if_pos inside, feedsBefore_zero, feedsBefore_of_lt inside]
      · rw [boundaryBelow, if_neg (by omega), Nat.add_sub_cancel_left, feedsBefore_add,
          feedsBefore_add, ih]

/-! ## Starts of lines -/

/-- A line starts at the first offset that has all earlier lines in front of it. -/
def StartsLine (text : List Char) (line start : Nat) : Prop :=
  IsLeast {offset | feedsBefore text offset + 1 = line} start

theorem startsLine_one (text : List Char) : StartsLine text 1 0 :=
  ⟨by simp, fun _ _ => Nat.zero_le _⟩

/-- A character in front moves the start of every line, but for the first one. -/
theorem StartsLine.cons {rest : List Char} {line start : Nat} (starts : StartsLine rest line start)
    (c : Char) (later : c = '\n' ∨ 1 < line) :
    StartsLine (c :: rest) ((if c = '\n' then 1 else 0) + line) (c.utf8Size + start) := by
  obtain ⟨reached, least⟩ := starts
  have reached : feedsBefore rest start + 1 = line := reached
  constructor
  · change feedsBefore (c :: rest) (c.utf8Size + start) + 1 = _
    rw [feedsBefore_add, Nat.add_assoc, reached]
  · intro offset before
    have before : feedsBefore (c :: rest) offset + 1 = (if c = '\n' then 1 else 0) + line := before
    obtain inside | ⟨behind, rfl⟩ := lt_or_exists_add c offset
    · rw [feedsBefore_of_lt inside] at before
      split at before
      · omega
      · cases later with
        | inl feed => contradiction
        | inr later => omega
    · rw [feedsBefore_add, Nat.add_assoc] at before
      have bounded : start ≤ behind := least (Nat.add_left_cancel before)
      omega

/-! ## Positions of offsets -/

theorem line_advance (position : Position) (text : List Char) (offset : Nat) :
    (position.advance text offset).line = position.line + feedsBefore text offset := by
  induction text generalizing position offset with
  | nil => rfl
  | cons c rest ih =>
      rw [Position.advance, feedsBefore]
      split
      · rfl
      · split
        · rw [ih, Nat.add_assoc]
        · rw [ih, Nat.zero_add]

/-- On the first line of a text the column goes on from where the text starts, and on
every other line it is counted from the start of the line. -/
theorem column_advance (position : Position) (text : List Char) (offset : Nat) :
    (feedsBefore text offset = 0 ∧
        (position.advance text offset).column = position.column + offset) ∨
      ∃ start, 0 < feedsBefore text offset ∧
        StartsLine text (feedsBefore text offset + 1) start ∧
        start + (position.advance text offset).column = offset := by
  induction text generalizing position offset with
  | nil => exact .inl ⟨rfl, rfl⟩
  | cons c rest ih =>
      obtain inside | ⟨offset, rfl⟩ := lt_or_exists_add c offset
      · refine .inl ⟨feedsBefore_of_lt inside, ?_⟩
        rw [Position.advance, if_pos inside]
      · rw [Position.advance, if_neg (by omega), Nat.add_sub_cancel_left, feedsBefore_add]
        by_cases feed : c = '\n'
        · rw [if_pos feed, if_pos feed]
          obtain ⟨none, column⟩ | ⟨start, some, starts, column⟩ :=
            ih ⟨position.line + 1, 0⟩ offset
          · refine .inr ⟨c.utf8Size, by omega, ?_, by rw [column]; simp⟩
            have second := (startsLine_one rest).cons c (.inl feed)
            rw [if_pos feed] at second
            rw [none]
            exact second
          · refine .inr ⟨c.utf8Size + start, by omega, ?_, by omega⟩
            have next := starts.cons c (.inl feed)
            rwa [if_pos feed, ← Nat.add_assoc] at next
        · rw [if_neg feed, if_neg feed, Nat.zero_add]
          obtain ⟨none, column⟩ | ⟨start, some, starts, column⟩ :=
            ih ⟨position.line, position.column + c.utf8Size⟩ offset
          · exact .inl ⟨none, by rw [column, Nat.add_assoc]⟩
          · refine .inr ⟨c.utf8Size + start, some, ?_, by omega⟩
            have same := starts.cons c (.inr (by omega))
            rwa [if_neg feed, Nat.zero_add] at same

/-- A position is that of a byte of a text, or of its end: it has the line feeds that
stand in front of the byte, and the distance of the byte from the start of its line. -/
structure Position.Marks (position : Position) (text : List Char) (offset : Nat) : Prop where
  inside : offset ≤ size text
  line : feedsBefore text offset + 1 = position.line
  column : ∃ start, StartsLine text position.line start ∧ start + position.column = offset

theorem marks_ofOffset {text : List Char} {offset : Nat} (inside : offset ≤ size text) :
    (Position.ofOffset text offset).Marks text offset := by
  have line : feedsBefore text offset + 1 = (Position.ofOffset text offset).line := by
    rw [Position.ofOffset, line_advance, Nat.add_comm]
  refine ⟨inside, line, ?_⟩
  rw [← line]
  obtain ⟨none, column⟩ | ⟨start, -, starts, column⟩ := column_advance ⟨1, 0⟩ text offset
  · refine ⟨0, ?_, ?_⟩
    · rw [none]
      exact startsLine_one text
    · rw [Position.ofOffset, column, Nat.zero_add, Nat.zero_add]
  · exact ⟨start, starts, column⟩

/-! ## Offsets of positions -/

theorem pieces_feed (rest : List Char) : pieces ('\n' :: rest) = ['\n'] :: pieces rest := by
  rw [pieces, if_pos rfl]

theorem pieces_other {c : Char} (noFeed : c ≠ '\n') (rest : List Char) :
    (pieces rest = [] ∧ pieces (c :: rest) = [[c]]) ∨
      ∃ piece more, pieces rest = piece :: more ∧ pieces (c :: rest) = (c :: piece) :: more := by
  rw [pieces, if_neg noFeed]
  cases pieces rest with
  | nil => exact .inl ⟨rfl, rfl⟩
  | cons piece more => exact .inr ⟨piece, more, rfl, rfl⟩

/-- The bytes of the first `index` lines. -/
def lineStart (text : List Char) (index : Nat) : Nat :=
  size ((pieces text).take index).flatten

theorem lineStart_cons_succ (c : Char) (rest : List Char) (index : Nat) :
    lineStart (c :: rest) (index + 1) =
      c.utf8Size + lineStart rest (if c = '\n' then index else index + 1) := by
  by_cases feed : c = '\n'
  · subst feed
    simp [lineStart, pieces_feed]
  · rw [if_neg feed, lineStart, lineStart]
    obtain ⟨none, single⟩ | ⟨piece, more, found, longer⟩ := pieces_other feed rest
    · simp [none, single]
    · simp [found, longer]

theorem startsLine_lineStart {text : List Char} {index offset : Nat}
    (reached : feedsBefore text offset = index) :
    StartsLine text (index + 1) (lineStart text index) := by
  induction text generalizing index offset with
  | nil =>
      subst reached
      exact startsLine_one []
  | cons c rest ih =>
      cases index with
      | zero => exact startsLine_one (c :: rest)
      | succ index =>
          obtain inside | ⟨offset, rfl⟩ := lt_or_exists_add c offset
          · rw [feedsBefore_of_lt inside] at reached
            exact nomatch reached
          · rw [feedsBefore_add] at reached
            rw [lineStart_cons_succ]
            by_cases feed : c = '\n'
            · rw [if_pos feed] at reached ⊢
              have inRest : feedsBefore rest offset = index := by omega
              have next := (ih inRest).cons c (.inl feed)
              rwa [if_pos feed, Nat.add_comm 1] at next
            · rw [if_neg feed, Nat.zero_add] at reached
              rw [if_neg feed]
              have same := (ih reached).cons c (.inr (by omega))
              rwa [if_neg feed, Nat.zero_add] at same

/-- The bytes of a line end where the next line starts, or with the text. -/
theorem le_lineStart_succ {text : List Char} {index offset : Nat} (inside : offset ≤ size text)
    (onLine : feedsBefore text offset = index) : offset ≤ lineStart text (index + 1) := by
  induction text generalizing index offset with
  | nil => exact inside
  | cons c rest ih =>
      rw [lineStart_cons_succ]
      obtain first | ⟨offset, rfl⟩ := lt_or_exists_add c offset
      · omega
      · rw [size_cons] at inside
        rw [feedsBefore_add] at onLine
        apply Nat.add_le_add_left
        by_cases feed : c = '\n'
        · rw [if_pos feed] at onLine ⊢
          rw [← onLine, Nat.add_comm 1]
          exact ih (by omega) rfl
        · rw [if_neg feed, Nat.zero_add] at onLine
          rw [if_neg feed]
          exact ih (by omega) onLine

theorem lineStart_succ_of_drop {text piece : List Char} {more : List (List Char)} {index : Nat}
    (found : (pieces text).drop index = piece :: more) :
    lineStart text (index + 1) = lineStart text index + size piece := by
  have here : (pieces text)[index]? = some piece := by
    rw [← List.head?_drop, found, List.head?_cons]
  simp [lineStart, List.take_add_one, here]

theorem lineStart_of_drop_eq_nil {text : List Char} {index : Nat}
    (none : (pieces text).drop index = []) : lineStart text index = size text := by
  rw [lineStart, List.take_of_length_le (List.drop_eq_nil_iff.mp none), flatten_pieces]

theorem lineStart_succ_of_drop_eq_nil {text : List Char} {index : Nat}
    (none : (pieces text).drop index = []) : lineStart text (index + 1) = size text := by
  apply lineStart_of_drop_eq_nil
  rw [← List.tail_drop, none, List.tail_nil]

/-- A column goes at most to the end of its line, and a line that the text does not have
is empty and at its end. -/
theorem toOffset_succ (text : List Char) (index column : Nat) :
    Position.toOffset text ⟨index + 1, column⟩ =
      boundaryBelow text
        (min (lineStart text index + (column - 1)) (lineStart text (index + 1))) := by
  cases found : (pieces text).drop index with
  | nil =>
      have past : size text ≤
          min (lineStart text index + (column - 1)) (lineStart text (index + 1)) := by
        rw [lineStart_of_drop_eq_nil found, lineStart_succ_of_drop_eq_nil found]
        omega
      simp only [Position.toOffset, found, boundaryBelow_of_size_le past]
  | cons piece more =>
      simp only [Position.toOffset, found, lineStart_succ_of_drop found, Nat.add_min_add_left]
      rfl

/-- The offset of a position on a line is the boundary below its place. -/
theorem toOffset_of_startsLine {text : List Char} {position : Position} {start : Nat}
    (starts : StartsLine text position.line start)
    (inside : start + (position.column - 1) ≤ size text)
    (onLine : feedsBefore text (start + (position.column - 1)) + 1 = position.line) :
    position.toOffset text = boundaryBelow text (start + (position.column - 1)) := by
  obtain ⟨line, column⟩ := position
  obtain ⟨index, rfl⟩ : ∃ index, line = index + 1 := ⟨_, onLine.symm⟩
  dsimp only at starts inside onLine ⊢
  have onLine : feedsBefore text (start + (column - 1)) = index := Nat.succ.inj onLine
  obtain rfl : start = lineStart text index := starts.unique (startsLine_lineStart onLine)
  rw [toOffset_succ, Nat.min_eq_left (le_lineStart_succ inside onLine)]

/-- A position is shown at the byte in front of its place and on the same line, or at
the boundary below if that byte is inside of a character. -/
structure Position.Shows (position : Position) (text : List Char) (offset : Nat) : Prop where
  inside : offset ≤ size text
  boundary : IsBoundary text offset
  line : feedsBefore text offset + 1 = position.line
  greatest : ∃ start, StartsLine text position.line start ∧
    IsGreatest {boundary | IsBoundary text boundary ∧ boundary ≤ start + (position.column - 1)}
      offset

theorem Position.Marks.toOffset_eq {position : Position} {text : List Char} {offset : Nat}
    (marks : position.Marks text offset) :
    ∃ start, StartsLine text position.line start ∧
      feedsBefore text (start + (position.column - 1)) + 1 = position.line ∧
      position.toOffset text = boundaryBelow text (start + (position.column - 1)) := by
  obtain ⟨inside, line, start, starts, rfl⟩ := marks
  have first : feedsBefore text start + 1 = position.line := starts.1
  -- the byte in front of the place still has the start of the line in front of it
  have lower := feedsBefore_mono text (Nat.le_add_right start (position.column - 1))
  have upper : feedsBefore text (start + (position.column - 1)) ≤
      feedsBefore text (start + position.column) := feedsBefore_mono text (by omega)
  have onLine : feedsBefore text (start + (position.column - 1)) + 1 = position.line := by omega
  exact ⟨start, starts, onLine, toOffset_of_startsLine starts (by omega) onLine⟩

theorem Position.Marks.shows {position : Position} {text : List Char} {offset : Nat}
    (marks : position.Marks text offset) : position.Shows text (position.toOffset text) := by
  obtain ⟨start, starts, onLine, same⟩ := marks.toOffset_eq
  have greatest := isGreatest_boundaryBelow text (start + (position.column - 1))
  rw [← same] at greatest
  refine ⟨greatest.1.1.le_size, greatest.1.1, ?_, start, starts, greatest⟩
  rw [same, feedsBefore_boundaryBelow, onLine]

end Externs.Text
