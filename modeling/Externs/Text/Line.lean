/-!
# Lines of a text

A text is cut after every line feed. The pieces keep their line feed and join
to the text again; the lines of a text are the pieces without their break.
-/

set_option autoImplicit false

namespace Externs.Text

/-- Cuts a text after each line feed. No piece is empty, so the empty text has
no pieces and a final line feed opens no further one. -/
def pieces : List Char → List (List Char)
  | [] => []
  | c :: rest =>
      if c = '\n' then [c] :: pieces rest
      else
        match pieces rest with
        | [] => [[c]]
        | piece :: more => (c :: piece) :: more

/-- A piece without its line feed and without the one carriage return before
that. A carriage return that no line feed follows belongs to the line. -/
def withoutBreak (piece : List Char) : List Char :=
  match piece.reverse with
  | '\n' :: '\r' :: line => line.reverse
  | '\n' :: line => line.reverse
  | _ => piece

def lines (text : String) : List String :=
  (pieces text.toList).map fun piece => String.ofList (withoutBreak piece)

/-- Cutting loses nothing. -/
@[simp]
theorem flatten_pieces (text : List Char) : (pieces text).flatten = text := by
  induction text with
  | nil => rfl
  | cons c rest ih =>
      rw [pieces]
      split
      · simp [ih]
      · split
        · next none => rw [none] at ih; simpa using ih
        · next piece more found => rw [found] at ih; simpa using ih

end Externs.Text
