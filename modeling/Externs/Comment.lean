import Externs.Text.Position

/-!
# Comments in schema text

Schema text is JSON with line comments and block comments. Comments are
overwritten with spaces and not removed, so that every byte that is left keeps
its place and positions in the blanked text are positions in the text that the
user wrote.
-/

set_option autoImplicit false

namespace Externs.Comment

/-- Where a scan of schema text stands. -/
inductive Mode where
  /-- Outside of strings and comments. -/
  | code
  /-- Inside a string. -/
  | quoted
  /-- Inside a line comment, which ends before its line feed. -/
  | line
  /-- Inside a block comment that was opened at `opener`, the rest of the text from there. -/
  | block (opener : List Char)
  deriving DecidableEq, Repr

/-- What a character of a comment becomes: a line feed stays, and any other
character leaves one space for each of its bytes. -/
def cover (c : Char) : List Char :=
  if c = '\n' then ['\n'] else List.replicate c.utf8Size ' '

/-- A comment keeps its size in bytes. -/
theorem size_cover (c : Char) : Text.size (cover c) = c.utf8Size := by
  have size_spaces (count : Nat) : Text.size (List.replicate count ' ') = count := by
    induction count with
    | zero => rfl
    | succ count ih =>
        rw [List.replicate_succ, Text.size_cons, ih]
        exact Nat.add_comm 1 count
  unfold cover
  split
  · next isBreak => rw [isBreak]; rfl
  · exact size_spaces c.utf8Size

/-- Overwrites the comments of a text. A backslash in a string protects the
next character, and a string that is never closed reaches to the end. A block
comment that is never closed gives the rest of the text from its opener on. -/
def scan : Mode → List Char → Except (List Char) (List Char)
  | .block opener, [] => .error opener
  | _, [] => .ok []
  | .code, '"' :: rest => (scan .quoted rest).map ('"' :: ·)
  | .code, '/' :: '/' :: rest => (scan .line rest).map ([' ', ' '] ++ ·)
  | .code, '/' :: '*' :: rest =>
      (scan (.block ('/' :: '*' :: rest)) rest).map ([' ', ' '] ++ ·)
  | .code, c :: rest => (scan .code rest).map (c :: ·)
  | .quoted, '\\' :: c :: rest => (scan .quoted rest).map (['\\', c] ++ ·)
  | .quoted, '"' :: rest => (scan .code rest).map ('"' :: ·)
  | .quoted, c :: rest => (scan .quoted rest).map (c :: ·)
  | .line, '\n' :: rest => (scan .code rest).map ('\n' :: ·)
  | .line, c :: rest => (scan .line rest).map (cover c ++ ·)
  | .block _, '*' :: '/' :: rest => (scan .code rest).map ([' ', ' '] ++ ·)
  | .block opener, c :: rest => (scan (.block opener) rest).map (cover c ++ ·)

theorem scan_openQuote (rest : List Char) :
    scan .code ('"' :: rest) = (scan .quoted rest).map ('"' :: ·) := by
  rw [scan]

theorem scan_closeQuote (rest : List Char) :
    scan .quoted ('"' :: rest) = (scan .code rest).map ('"' :: ·) := by
  rw [scan]

/-- The text with its comments overwritten, or the byte offset of the opener of
the block comment that is never closed. -/
def blank (source : String) : Except Nat String :=
  match scan .code source.toList with
  | .ok text => .ok (String.ofList text)
  | .error opener => .error (Text.size source.toList - Text.size opener)

end Externs.Comment
