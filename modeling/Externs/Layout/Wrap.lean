import Externs.Text.Blank

/-!
# Wrapping prose

Prose is broken at the last space that keeps a line within its limit, or in the
middle of a word where there is none. Lengths are counted in characters.
-/

set_option autoImplicit false

namespace Externs.Layout

/-- Keeps free text from closing the comment that it stands in. -/
def escapeCommentEnd : List Char → List Char
  | '*' :: '/' :: rest => '*' :: '\\' :: '/' :: escapeCommentEnd rest
  | c :: rest => c :: escapeCommentEnd rest
  | [] => []

/-- Free text that is safe in a comment. -/
def escaped (text : String) : String :=
  String.ofList (escapeCommentEnd text.toList)

/-- What stands before the last space of a text, if it has one. -/
def beforeLastSpace? (text : List Char) : Option (List Char) :=
  match text.reverse.dropWhile (· != ' ') with
  | [] => none
  | _ :: before => some before.reverse

/-- Splits off a line of at most `limit` characters. A space right after the limit
still ends the line. Blanks on both sides of the break are dropped. -/
def splitLine (limit : Nat) (text : List Char) : List Char × List Char :=
  if text.length ≤ limit then (text, [])
  else
    match beforeLastSpace? (text.take (limit + 1)) with
    | some line => (Text.trimEnd line, Text.trimStart (text.drop (line.length + 1)))
    | none => (text.take limit, Text.trimStart (text.drop limit))

/-- With room for a character, splitting off a line leaves less. -/
theorem length_splitLine_snd_lt {limit : Nat} (room : 0 < limit) {text : List Char}
    (more : text ≠ []) : (splitLine limit text).2.length < text.length := by
  have positive : 0 < text.length := List.length_pos_iff.mpr more
  unfold splitLine
  split
  · simpa using positive
  · split
    · next line _ =>
        have trimmed := Text.length_trimStart_le (text.drop (line.length + 1))
        simp only [List.length_drop] at trimmed
        simp only
        omega
    · have trimmed := Text.length_trimStart_le (text.drop limit)
      simp only [List.length_drop] at trimmed
      simp only
      omega

/-- Breaks a text into lines of at most `limit + 1` characters. -/
def wrap (limit : Nat) (text : List Char) : List (List Char) :=
  if more : text = [] then []
  else
    let split := splitLine (limit + 1) text
    split.1 :: wrap limit split.2
termination_by text.length
decreasing_by exact length_splitLine_snd_lt (Nat.succ_pos limit) more

end Externs.Layout
