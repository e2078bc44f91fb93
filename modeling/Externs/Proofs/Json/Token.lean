import Externs.Comment
import Externs.Json.Reader
import Mathlib.Data.List.Forall2

/-!
# Tokens of a JSON text

How tokens are spelled, and what may stand between them. Blanking the comments of a
text keeps its tokens, and leaves only white space between them.
-/

set_option autoImplicit false

namespace Externs.Json

/-! ## Tokens and their spellings -/

inductive Mark where
  | openList
  | closeList
  | openObject
  | closeObject
  | comma
  | colon
  deriving DecidableEq, Repr

def Mark.char : Mark → Char
  | .openList => '['
  | .closeList => ']'
  | .openObject => '\x7b'
  | .closeObject => '\x7d'
  | .comma => ','
  | .colon => ':'

inductive Token where
  | mark (mark : Mark)
  | null
  | boolean (value : Bool)
  | string (value : String)
  deriving DecidableEq, Repr

def separated : List (List Token) → List Token
  | [] => []
  | first :: rest => first ++ rest.flatMap fun part => .mark .comma :: part

def listTokens (items : List (List Token)) : List Token :=
  .mark .openList :: separated items ++ [.mark .closeList]

def memberTokens (name : String) (value : List Token) : List Token :=
  .string name :: .mark .colon :: value

def objectTokens (members : List (String × List Token)) : List Token :=
  .mark .openObject :: separated (members.map fun member => memberTokens member.1 member.2) ++
    [.mark .closeObject]

/-- How a value without numbers and `null` is written, with at most `depth` brackets open
at the same time. -/
def Written : (depth : Nat) → Json → List Token → Prop
  | _, .scalar (.boolean value), tokens => tokens = [.boolean value]
  | _, .scalar (.string value), tokens => tokens = [.string value]
  | depth + 1, .list items, tokens =>
      ∃ parts, List.Forall₂ (Written depth) items parts ∧ tokens = listTokens parts
  | depth + 1, .object members, tokens =>
      ∃ parts,
        List.Forall₂ (fun member part => member.1 = part.1 ∧ Written depth member.2 part.2)
          members parts ∧ tokens = objectTokens parts
  | _, _, _ => False

/-- A hexadecimal digit in either case. -/
def IsHex (value : Nat) (c : Char) : Prop :=
  value < 16 ∧ (c = value.digitChar ∨ c = value.digitChar.toUpper)

def IsUnit (unit : Nat) : List Char → Prop
  | [a, b, c, d] =>
      IsHex (unit / 4096) a ∧ IsHex (unit / 256 % 16) b ∧ IsHex (unit / 16 % 16) c ∧
        IsHex (unit % 16) d
  | _ => False

instance (value : Nat) (c : Char) : Decidable (IsHex value c) :=
  inferInstanceAs (Decidable (value < 16 ∧ (c = value.digitChar ∨ c = value.digitChar.toUpper)))

instance (unit : Nat) : (digits : List Char) → Decidable (IsUnit unit digits)
  | [a, b, c, d] =>
      inferInstanceAs (Decidable (IsHex (unit / 4096) a ∧ IsHex (unit / 256 % 16) b ∧
        IsHex (unit / 16 % 16) c ∧ IsHex (unit % 16) d))
  | [] | [_] | [_, _] | [_, _, _] | _ :: _ :: _ :: _ :: _ :: _ => isFalse id

/-- The letters behind a backslash, and what they stand for. -/
def shortEscapes : List (Char × Char) :=
  [('"', '"'), ('\\', '\\'), ('/', '/'), ('b', '\x08'), ('f', '\x0c'), ('n', '\n'), ('r', '\r'),
    ('t', '\t')]

/-- What stands between the quotes of a string, and the characters that it denotes. An
escaped code is one unit of UTF-16, or two for a character that needs them. -/
inductive Denotes : List Char → List Char → Prop
  | nil : Denotes [] []
  | plain {c : Char} {text value : List Char} (noQuote : c ≠ '"') (noEscape : c ≠ '\\')
      (printed : 0x20 ≤ c.toNat) (rest : Denotes text value) : Denotes (c :: text) (c :: value)
  | short {letter c : Char} {text value : List Char} (listed : (letter, c) ∈ shortEscapes)
      (rest : Denotes text value) : Denotes ('\\' :: letter :: text) (c :: value)
  | unit {c : Char} {digits text value : List Char} (code : IsUnit c.toNat digits)
      (rest : Denotes text value) : Denotes ('\\' :: 'u' :: digits ++ text) (c :: value)
  | pair {c : Char} {first second text value : List Char} (wide : 0x10000 ≤ c.toNat)
      (leading : IsUnit (0xD800 + (c.toNat - 0x10000) / 0x400) first)
      (trailing : IsUnit (0xDC00 + (c.toNat - 0x10000) % 0x400) second)
      (rest : Denotes text value) :
      Denotes ('\\' :: 'u' :: first ++ ('\\' :: 'u' :: second ++ text)) (c :: value)

inductive Spells : Token → List Char → Prop
  | mark (mark : Mark) : Spells (.mark mark) [mark.char]
  | null : Spells .null ['n', 'u', 'l', 'l']
  | true : Spells (.boolean true) ['t', 'r', 'u', 'e']
  | false : Spells (.boolean false) ['f', 'a', 'l', 's', 'e']
  | string {value : String} {body : List Char} (denotes : Denotes body value.toList) :
      Spells (.string value) ('"' :: body ++ ['"'])

/-! ## Layouts -/

/-- White space and complete comments. -/
inductive Gap : List Char → Prop
  | nil : Gap []
  | space {c : Char} {rest : List Char} (space : Reader.isSpace c = true) (more : Gap rest) :
      Gap (c :: rest)
  | line {body rest : List Char} (single : '\n' ∉ body) (more : Gap rest) :
      Gap ('/' :: '/' :: body ++ '\n' :: rest)
  | block {body rest : List Char} (unclosed : ¬ ['*', '/'] <:+: body) (more : Gap rest) :
      Gap ('/' :: '*' :: body ++ '*' :: '/' :: rest)

def Blank (text : List Char) : Prop :=
  ∀ c ∈ text, Reader.isSpace c = true

instance (text : List Char) : Decidable (Blank text) :=
  decidable_of_iff (text.all Reader.isSpace = true) List.all_eq_true

/-- Tokens, each after something that may stand between two tokens. -/
inductive Laid (between : List Char → Prop) : List Token → List Char → Prop
  | nil : Laid between [] []
  | cons {token : Token} {tokens : List Token} {gap word text : List Char} (gapped : between gap)
      (spelled : Spells token word) (rest : Laid between tokens text) :
      Laid between (token :: tokens) (gap ++ (word ++ text))

theorem Laid.of_append {between : List Char → Prop} {first second : List Token}
    {text : List Char} (laid : Laid between (first ++ second) text) :
    ∃ left right, text = left ++ right ∧ Laid between first left ∧ Laid between second right := by
  induction first generalizing text with
  | nil => exact ⟨[], text, rfl, .nil, laid⟩
  | cons token tokens ih =>
      obtain _ | ⟨gapped, spelled, rest⟩ := laid
      obtain ⟨left, right, rfl, one, two⟩ := ih rest
      exact ⟨_, right, by simp, .cons gapped spelled one, two⟩

/-! ## Blanked comments -/

theorem blank_cover (c : Char) : Blank (Comment.cover c) := by
  intro d member
  rw [Comment.cover] at member
  split at member
  · rw [List.mem_singleton.mp member]
    rfl
  · rw [(List.mem_replicate.mp member).2]
    rfl

theorem blank_flatMap_cover (body : List Char) : Blank (body.flatMap Comment.cover) := by
  intro d member
  obtain ⟨c, -, inCover⟩ := List.mem_flatMap.mp member
  exact blank_cover c d inCover

theorem Blank.append {first second : List Char} (one : Blank first) (two : Blank second) :
    Blank (first ++ second) :=
  List.forall_mem_append.mpr ⟨one, two⟩

/-- A text that the scan goes over in a mode and leaves as `blanked`. -/
def Scans (start : Comment.Mode) (text blanked : List Char) (stop : Comment.Mode) : Prop :=
  ∀ rest, Comment.scan start (text ++ rest) = (Comment.scan stop rest).map (blanked ++ ·)

theorem Scans.nil (mode : Comment.Mode) : Scans mode [] [] mode := by
  intro rest
  cases scanned : Comment.scan mode rest <;> simp [scanned, Except.map]

theorem Scans.append {start middle stop : Comment.Mode} {first second left right : List Char}
    (one : Scans start first left middle) (two : Scans middle second right stop) :
    Scans start (first ++ second) (left ++ right) stop := by
  intro rest
  rw [List.append_assoc, one, two]
  cases Comment.scan stop rest <;> simp [Except.map]

section

open Comment (scan cover)

theorem scans_code {c : Char} (noQuote : c ≠ '"') (noSlash : c ≠ '/') :
    Scans .code [c] [c] .code := by
  intro rest
  rw [List.singleton_append, scan]
  · rfl
  · exact noQuote
  · exact fun _ slash => absurd slash noSlash
  · exact fun _ slash => absurd slash noSlash

theorem scans_quoted {c : Char} (noQuote : c ≠ '"') (noEscape : c ≠ '\\') :
    Scans .quoted [c] [c] .quoted := by
  intro rest
  rw [List.singleton_append, scan]
  · rfl
  · exact fun _ _ escape => absurd escape noEscape
  · exact noQuote

theorem scans_escape (c : Char) : Scans .quoted ['\\', c] ['\\', c] .quoted := by
  intro rest
  rw [List.cons_append, List.singleton_append, scan]

theorem scans_line {body : List Char} (single : '\n' ∉ body) :
    Scans .line body (body.flatMap cover) .line := by
  induction body with
  | nil => exact .nil .line
  | cons c rest ih =>
      rw [List.mem_cons, not_or] at single
      have first : Scans .line [c] (cover c) .line := by
        intro later
        rw [List.singleton_append, scan]
        exact fun feed => single.1 feed.symm
      exact first.append (ih single.2)

theorem scan_block_append {body tail : List Char} (unclosed : ¬ ['*', '/'] <:+: body)
    (apart : tail.head? ≠ some '/') (opener : List Char) :
    scan (.block opener) (body ++ tail) =
      (scan (.block opener) tail).map (body.flatMap cover ++ ·) := by
  induction body with
  | nil => exact Scans.nil (.block opener) tail
  | cons c rest ih =>
      rw [List.infix_cons_iff, not_or] at unclosed
      rw [List.cons_append, scan, ih unclosed.2]
      · cases scan (.block opener) tail <;> simp [Except.map]
      · -- a star right before a slash would end the body
        intro following star split
        cases rest with
        | nil =>
            rw [List.nil_append] at split
            rw [split] at apart
            exact apart rfl
        | cons d more =>
            obtain ⟨rfl, -⟩ := List.cons.inj split
            exact unclosed.1 ⟨more, by rw [star]; rfl⟩

/-- A block comment is scanned to its first end, whatever its opener was. -/
theorem scans_block {body : List Char} (unclosed : ¬ ['*', '/'] <:+: body) (opener : List Char) :
    Scans (.block opener) (body ++ ['*', '/']) (body.flatMap cover ++ [' ', ' ']) .code := by
  intro rest
  rw [List.append_assoc, scan_block_append unclosed (by simp), List.cons_append,
    List.singleton_append, scan]
  cases scan .code rest <;> simp [Except.map]

theorem scans_comment {body : List Char} (unclosed : ¬ ['*', '/'] <:+: body) :
    Scans .code ('/' :: '*' :: body ++ ['*', '/'])
      ([' ', ' '] ++ (body.flatMap cover ++ [' ', ' '])) .code := by
  intro later
  rw [List.cons_append, List.cons_append, List.cons_append, List.cons_append, scan,
    scans_block unclosed _ later]
  cases scan .code later <;> simp [Except.map]

theorem scans_gap {gap : List Char} (gapped : Gap gap) :
    ∃ covered, Blank covered ∧ Scans .code gap covered .code := by
  induction gapped with
  | nil => exact ⟨[], by simp [Blank], .nil .code⟩
  | @space c rest space _ ih =>
      obtain ⟨covered, blank, scans⟩ := ih
      have noQuote : c ≠ '"' := by
        rintro rfl
        exact absurd space (by decide)
      have noSlash : c ≠ '/' := by
        rintro rfl
        exact absurd space (by decide)
      exact ⟨c :: covered, List.forall_mem_cons.mpr ⟨space, blank⟩,
        (scans_code noQuote noSlash).append scans⟩
  | @line body rest single _ ih =>
      obtain ⟨covered, blank, scans⟩ := ih
      have opened : Scans .code ['/', '/'] [' ', ' '] .line := fun later => by
        rw [List.cons_append, List.singleton_append, scan]
      have feed : Scans .line ['\n'] ['\n'] .code := fun later => by
        rw [List.singleton_append, scan]
        rfl
      refine ⟨[' ', ' '] ++ (body.flatMap cover ++ ['\n']) ++ covered, ?_, ?_⟩
      · have inside := (blank_flatMap_cover body).append (by decide : Blank ['\n'])
        exact (Blank.append (by decide) inside).append blank
      · have whole := (opened.append ((scans_line single).append feed)).append scans
        simpa using whole
  | @block body rest unclosed _ ih =>
      obtain ⟨covered, blank, scans⟩ := ih
      refine ⟨[' ', ' '] ++ (body.flatMap cover ++ [' ', ' ']) ++ covered, ?_, ?_⟩
      · have inside := (blank_flatMap_cover body).append (by decide : Blank [' ', ' '])
        exact (Blank.append (by decide) inside).append blank
      · have whole := (scans_comment unclosed).append scans
        simpa using whole

theorem scans_plain {text : List Char} (plain : ∀ c ∈ text, c ≠ '"' ∧ c ≠ '/') :
    Scans .code text text .code := by
  induction text with
  | nil => exact .nil .code
  | cons c rest ih =>
      obtain ⟨⟨noQuote, noSlash⟩, others⟩ := List.forall_mem_cons.mp plain
      exact (scans_code noQuote noSlash).append (ih others)

theorem IsHex.isAlphanum {value : Nat} {c : Char} (digit : IsHex value c) :
    c.isAlphanum = true := by
  obtain ⟨small, rfl | rfl⟩ := digit
  · revert value
    decide
  · revert value
    decide

theorem scans_unit {unit : Nat} {digits : List Char} (code : IsUnit unit digits) :
    Scans .quoted digits digits .quoted := by
  have one {value : Nat} {c : Char} (digit : IsHex value c) : Scans .quoted [c] [c] .quoted := by
    have letter := digit.isAlphanum
    apply scans_quoted
    · rintro rfl
      exact absurd letter (by decide)
    · rintro rfl
      exact absurd letter (by decide)
  match digits, code with
  | [a, b, c, d], ⟨first, second, third, fourth⟩ =>
      exact (one first).append ((one second).append ((one third).append (one fourth)))

/-- The scan leaves what stands in a string alone. -/
theorem scans_denotes {body value : List Char} (denotes : Denotes body value) :
    Scans .quoted body body .quoted := by
  induction denotes with
  | nil => exact .nil .quoted
  | plain noQuote noEscape _ _ ih => exact (scans_quoted noQuote noEscape).append ih
  | @short letter _ _ _ _ _ ih => exact (scans_escape letter).append ih
  | unit code _ ih => exact ((scans_escape 'u').append (scans_unit code)).append ih
  | pair _ leading trailing _ ih =>
      have first := (scans_escape 'u').append (scans_unit leading)
      have second := (scans_escape 'u').append (scans_unit trailing)
      exact first.append (second.append ih)

theorem scans_token {token : Token} {word : List Char} (spelled : Spells token word) :
    Scans .code word word .code := by
  cases spelled with
  | mark mark => cases mark <;> exact scans_plain (by simp [Mark.char])
  | null => exact scans_plain (by simp)
  | true => exact scans_plain (by simp)
  | false => exact scans_plain (by simp)
  | string denotes =>
      have opened : Scans .code ['"'] ['"'] .quoted := fun rest => by
        rw [List.singleton_append, scan]
        rfl
      have closed : Scans .quoted ['"'] ['"'] .code := fun rest => by
        rw [List.singleton_append, scan]
        rfl
      exact opened.append ((scans_denotes denotes).append closed)

/-- Blanking the comments keeps the tokens. -/
theorem scans_laid {tokens : List Token} {text : List Char} (laid : Laid Gap tokens text) :
    ∃ blanked, Laid Blank tokens blanked ∧ Scans .code text blanked .code := by
  induction laid with
  | nil => exact ⟨[], .nil, .nil .code⟩
  | cons gapped spelled _ ih =>
      obtain ⟨covered, blank, scansGap⟩ := scans_gap gapped
      obtain ⟨blanked, laid, scans⟩ := ih
      exact ⟨_, .cons blank spelled laid, scansGap.append ((scans_token spelled).append scans)⟩

end

end Externs.Json
