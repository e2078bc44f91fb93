import Externs.Json.Problem
import Externs.Text.Position

/-!
# Readers

A reader takes characters off the front of a text. Its state is what is left of
the text, also when it fails, because the place of a problem may depend on how
far reading could still get.
-/

set_option autoImplicit false

namespace Externs.Json

/-- A problem and its place. The place is given by the number of bytes that were
left of the text. A problem with what the text says has no place at first; the
list or object around it gives it one. -/
structure Fault where
  problem : Problem
  left : Option Nat
  deriving DecidableEq, Repr

/-- Gives a fault without a place the place where `rest` starts. -/
def Fault.placedAt (fault : Fault) (rest : List Char) : Fault :=
  { fault with left := some (fault.left.getD (Text.size rest)) }

/-- A function that reads a value off the front of a text. -/
abbrev Reader : Type → Type := EStateM Fault (List Char)

/-- A problem with its position in the text. -/
structure Complaint where
  problem : Problem
  position : Text.Position
  deriving DecidableEq, Repr

def Complaint.text (complaint : Complaint) : String :=
  complaint.problem.text ++ " at line " ++ toString complaint.position.line ++
    " column " ++ toString complaint.position.column

namespace Reader

variable {α σ : Type}

/-! ## Failing -/

def failHere (problem : Problem) : Reader α := fun rest =>
  .error ⟨problem, some (Text.size rest)⟩ rest

/-- Fails after the next byte, or at the end of the text if there is none. -/
def failNext (problem : Problem) : Reader α := fun rest =>
  .error ⟨problem, some (Text.size rest - 1)⟩ rest

/-- Fails without a place. -/
def refuse (problem : Problem) : Reader α := fun rest =>
  .error ⟨problem, none⟩ rest

/-! ## Single characters -/

/-- The next character, which stays. -/
def peek : Reader (Option Char) := fun rest =>
  .ok rest.head? rest

def advance : Reader Unit := fun rest =>
  .ok () rest.tail

def takeWhile (passes : Char → Bool) : Reader (List Char) := fun rest =>
  .ok (rest.takeWhile passes) (rest.dropWhile passes)

/-- The blanks between two tokens. -/
def isSpace (c : Char) : Bool :=
  c == ' ' || c == '\n' || c == '\t' || c == '\r'

/-- Skips blanks and gives the next character, which stays. -/
def token : Reader (Option Char) := fun rest =>
  let rest := rest.dropWhile isSpace
  .ok rest.head? rest

/-! ## Loops and brackets -/

/-- Runs `step` until it says that it is done, but at most `bound` times. -/
def iterateUpTo (step : σ → Reader (ForInStep σ)) : (bound : Nat) → (state : σ) → Reader σ
  | 0, state => fun text => .ok state text
  | bound + 1, state => fun text =>
      match step state text with
      | .error fault rest => .error fault rest
      | .ok (.done state) rest => .ok state rest
      | .ok (.yield state) rest => iterateUpTo step bound state rest

/-- Runs `step` until it says that it is done. A step that goes on has taken
something off the text, so the length of the text bounds their number. -/
def iterate (step : σ → Reader (ForInStep σ)) (state : σ) : Reader σ := fun text =>
  iterateUpTo step (text.length + 1) state text

/-- Reads what stands between two brackets, of which the opening one is already
read. Closing is tried even if the contents cannot be read: their fault is
kept, and one without a place gets the place that closing has reached. -/
def enclosed (close : Reader Unit) (contents : Reader α) : Reader α := fun text =>
  match contents text with
  | .ok value rest =>
      match close rest with
      | .ok _ rest => .ok value rest
      | .error fault rest => .error (fault.placedAt rest) rest
  | .error fault rest =>
      match close rest with
      | .ok _ rest => .error (fault.placedAt rest) rest
      | .error _ rest => .error (fault.placedAt rest) rest

/-- Reads a whole text. After the value only blanks may follow. -/
def whole (value : Reader α) (text : List Char) : Except Complaint α :=
  let all : Reader α := do
    let result ← value
    match ← token with
    | none => return result
    | some _ => failNext .trailingText
  match all text with
  | .ok result _ => .ok result
  | .error fault _ =>
      .error ⟨fault.problem, .ofOffset text (Text.size text - fault.left.getD 0)⟩

end Reader

end Externs.Json
