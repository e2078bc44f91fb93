import Externs.Layout.Wrap

/-!
# Listings

A listing is a text under construction, line by line. Lines that are appended get
the margin of the listing in front; text can also be added to the last line.
-/

set_option autoImplicit false

namespace Externs.Layout

/-- What stands in front of a line: marks, outermost first, and then spaces. -/
structure Margin where
  marks : List String := []
  indent : Nat := 0
  deriving DecidableEq, Repr

def spaces (count : Nat) : String :=
  String.ofList (List.replicate count ' ')

def Margin.text (margin : Margin) : String :=
  String.join margin.marks ++ spaces margin.indent

/-- A line with its margin. One without text has no margin either. -/
def Margin.apply (margin : Margin) (line : String) : String :=
  if line.isEmpty then "" else margin.text ++ line

/-- The lines written so far, with the last one in front, the margin of the next
line, and the column at which prose is wrapped. -/
structure Listing where
  backwards : List String := []
  margin : Margin := {}
  width : Nat := 80
  deriving DecidableEq, Repr

namespace Listing

def ofWidth (width : Nat) : Listing := { width }

def ofLine (line : String) : Listing := { backwards := [line] }

def lines (listing : Listing) : List String :=
  listing.backwards.reverse

/-- The lines with line breaks between them. -/
def text (listing : Listing) : String :=
  "\n".intercalate listing.lines

/-! ## Lines -/

def append (line : String) (listing : Listing) : Listing :=
  { listing with backwards := listing.margin.apply line :: listing.backwards }

def blank (listing : Listing) : Listing :=
  listing.append ""

/-- Goes on in the last line, or in a first one. -/
def inline (content : String) (listing : Listing) : Listing :=
  { listing with
    backwards :=
      match listing.backwards with
      | [] => [content]
      | last :: before => (last ++ content) :: before }

def appendAll (lines : List String) (listing : Listing) : Listing :=
  lines.foldl (fun listing line => listing.append line) listing

/-- Adds lines of which the first one goes on in the last line. -/
def splice (lines : List String) (listing : Listing) : Listing :=
  match lines with
  | [] => listing
  | first :: rest => (listing.inline first).appendAll rest

/-- Drops the lines at the end that have nothing but blanks. -/
def trimEnd (listing : Listing) : Listing :=
  { listing with backwards := listing.backwards.dropWhile Text.allBlank }

/-! ## Prose -/

/-- The lines of what is left of a wrapped text, each with a hanging indent. A
line has room for at least one character. -/
def wrapRest (rest : List Char) (hanging : Nat) (listing : Listing) : Listing :=
  let room := listing.width - (listing.margin.text.length + hanging)
  listing.appendAll
    ((wrap (room - 1) rest).map fun line => spaces hanging ++ String.ofList line)

/-- A new line of prose, wrapped at the width of the listing. -/
def comment (content : String) (listing : Listing) : Listing :=
  let room := listing.width - listing.margin.text.length
  let (line, rest) := splitLine room (escapeCommentEnd content.toList)
  (listing.append (String.ofList line)).wrapRest rest 0

/-- Goes on in the last line with prose. What does not fit goes to new lines with
a hanging indent. -/
def commentInline (content : String) (hanging : Nat) (listing : Listing) : Listing :=
  let used := (listing.backwards.head?.getD "").length
  let (line, rest) := splitLine (listing.width - used) (escapeCommentEnd content.toList)
  (listing.inline (String.ofList line)).wrapRest rest hanging

/-! ## Blocks -/

/-- What stands in front of the lines of a doc comment. -/
def docMark : String := " * "

/-- How far the lines between braces are indented. -/
def indentStep : Nat := 2

def openDoc (listing : Listing) : Listing :=
  let opened := listing.append "/**"
  { opened with margin.marks := opened.margin.marks ++ [docMark] }

/-- Takes back the margin of a doc comment. -/
def leaveDoc (listing : Listing) : Listing :=
  { listing with margin.marks := listing.margin.marks.dropLast }

def closeDoc (listing : Listing) : Listing :=
  listing.leaveDoc.append " */"

/-- Opens a brace at the end of the last line. -/
def openBrace (listing : Listing) : Listing :=
  let opened := listing.inline "\x7b"
  { opened with margin.indent := opened.margin.indent + indentStep }

def leaveBrace (listing : Listing) : Listing :=
  { listing with margin.indent := listing.margin.indent - indentStep }

/-- Closes a brace on a line of its own. -/
def closeBrace (listing : Listing) : Listing :=
  listing.leaveBrace.append "\x7d"

/-! ## What is written and what stays

Lines that are appended follow the lines before them, and neither they nor the
text added to the last line change the margin or the width. -/

@[simp]
theorem lines_ofWidth (width : Nat) : (ofWidth width).lines = [] :=
  rfl

@[simp]
theorem lines_append (line : String) (listing : Listing) :
    (listing.append line).lines = listing.lines ++ [listing.margin.apply line] := by
  simp [lines, append]

@[simp]
theorem margin_append (line : String) (listing : Listing) :
    (listing.append line).margin = listing.margin :=
  rfl

@[simp]
theorem width_append (line : String) (listing : Listing) :
    (listing.append line).width = listing.width :=
  rfl

@[simp]
theorem margin_inline (content : String) (listing : Listing) :
    (listing.inline content).margin = listing.margin :=
  rfl

@[simp]
theorem width_inline (content : String) (listing : Listing) :
    (listing.inline content).width = listing.width :=
  rfl

@[simp]
theorem margin_appendAll (lines : List String) (listing : Listing) :
    (listing.appendAll lines).margin = listing.margin := by
  induction lines generalizing listing with
  | nil => rfl
  | cons line rest ih => exact ih (listing.append line)

@[simp]
theorem width_appendAll (lines : List String) (listing : Listing) :
    (listing.appendAll lines).width = listing.width := by
  induction lines generalizing listing with
  | nil => rfl
  | cons line rest ih => exact ih (listing.append line)

/-- Several new lines all get the margin. -/
theorem lines_appendAll (lines : List String) (listing : Listing) :
    (listing.appendAll lines).lines = listing.lines ++ lines.map listing.margin.apply := by
  induction lines generalizing listing with
  | nil => simp [appendAll]
  | cons line rest ih =>
      have later := ih (listing.append line)
      simpa [appendAll] using later

@[simp]
theorem margin_splice (lines : List String) (listing : Listing) :
    (listing.splice lines).margin = listing.margin := by
  cases lines with
  | nil => rfl
  | cons first rest => simp [splice]

@[simp]
theorem width_splice (lines : List String) (listing : Listing) :
    (listing.splice lines).width = listing.width := by
  cases lines with
  | nil => rfl
  | cons first rest => simp [splice]

end Listing

end Externs.Layout
