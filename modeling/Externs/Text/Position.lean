import Externs.Text.Line

/-!
# Positions in a text

Places are counted in bytes of the UTF-8 form. An offset counts from the start
of the text; a position is a line, counted from one, and the number of bytes
between the start of that line and the place.
-/

set_option autoImplicit false

namespace Externs.Text

/-- The number of bytes of a text in UTF-8. -/
def size : List Char → Nat
  | [] => 0
  | c :: rest => c.utf8Size + size rest

/-- The largest character boundary of `text` that is not above `offset`. -/
def boundaryBelow : List Char → Nat → Nat
  | [], _ => 0
  | c :: rest, offset =>
      if offset < c.utf8Size then 0
      else c.utf8Size + boundaryBelow rest (offset - c.utf8Size)

/-- A place in a text by line and column. -/
structure Position where
  /-- One more than the number of line feeds before the place. -/
  line : Nat
  /-- Bytes from the start of the line to the place. -/
  column : Nat
  deriving DecidableEq, Repr

namespace Position

/-- The position `offset` bytes further into `text`, when `text` starts at `position`. -/
def advance (position : Position) : List Char → Nat → Position
  | [], offset => { position with column := position.column + offset }
  | c :: rest, offset =>
      if offset < c.utf8Size then { position with column := position.column + offset }
      else if c = '\n' then advance ⟨position.line + 1, 0⟩ rest (offset - c.utf8Size)
      else advance ⟨position.line, position.column + c.utf8Size⟩ rest (offset - c.utf8Size)

def ofOffset (text : List Char) (offset : Nat) : Position :=
  advance ⟨1, 0⟩ text offset

/-- The offset of the byte that stands `column` th in its line, counted from one,
moved down to a character boundary. A column past the line ends with the line,
and a line that the text does not have stands at the end of the text. -/
def toOffset (text : List Char) (position : Position) : Nat :=
  match position.line with
  | 0 => size text
  | index + 1 =>
      match (pieces text).drop index with
      | [] => size text
      | piece :: _ =>
          boundaryBelow text
            (size ((pieces text).take index).flatten + min (position.column - 1) (size piece))

end Position

@[simp]
theorem size_nil : size [] = 0 :=
  rfl

@[simp]
theorem size_cons (c : Char) (rest : List Char) : size (c :: rest) = c.utf8Size + size rest :=
  rfl

@[simp]
theorem size_append (front back : List Char) : size (front ++ back) = size front + size back := by
  induction front with
  | nil => simp
  | cons c front ih => simp [ih, Nat.add_assoc]

/-- A character takes at least one byte. -/
theorem length_le_size (text : List Char) : text.length ≤ size text := by
  induction text with
  | nil => exact Nat.le_refl _
  | cons c rest ih =>
      have positive := c.utf8Size_pos
      rw [size_cons, List.length_cons]
      omega

/-- A boundary never lies above the offset it was taken for. -/
theorem boundaryBelow_le (text : List Char) (offset : Nat) : boundaryBelow text offset ≤ offset := by
  induction text generalizing offset with
  | nil => exact Nat.zero_le _
  | cons c rest ih =>
      rw [boundaryBelow]
      split
      · exact Nat.zero_le _
      · have bounded := ih (offset - c.utf8Size)
        omega

end Externs.Text
