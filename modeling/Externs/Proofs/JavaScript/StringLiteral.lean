import Externs.Proofs.JavaScript.Code
import Externs.Proofs.Json.Reading

/-!
# String literals

A reader for single-quoted string literals of JavaScript with all their escapes, and what
it makes of the literals of enumeration values. The value comes back whatever quotes and
backslashes are in it. Only a line break cannot be in a literal.
-/

set_option autoImplicit false

namespace Externs.JavaScript

/-! ## Values -/

/-- The code units of a code point, which are a surrogate pair above `U+FFFF`. -/
def encodePoint (point : Nat) : List UInt16 :=
  if point < 0x10000 then [point.toUInt16]
  else
    [(0xD800 + (point - 0x10000) / 0x400).toUInt16,
      (0xDC00 + (point - 0x10000) % 0x400).toUInt16]

/-- A string is the sequence of its code units. -/
def codeUnits (text : List Char) : List UInt16 :=
  text.flatMap fun c => encodePoint c.toNat

theorem codeUnits_cons (c : Char) (rest : List Char) :
    codeUnits (c :: rest) = encodePoint c.toNat ++ codeUnits rest :=
  List.flatMap_cons

theorem toUInt16_inj {first second : Nat} (small : first < 0x10000) (bound : second < 0x10000)
    (same : first.toUInt16 = second.toUInt16) : first = second := by
  have values := congrArg UInt16.toNat same
  simp only [Nat.toUInt16_eq, UInt16.toNat_ofNat'] at values
  omega

/-- No code of a character is the start of another one's. -/
theorem encodePoint_append_inj {c d : Char} {units others : List UInt16}
    (same : encodePoint c.toNat ++ units = encodePoint d.toNat ++ others) :
    c = d ∧ units = others := by
  have valid := Json.toNat_lt_of_char c
  have bound := Json.toNat_lt_of_char d
  suffices codes : c.toNat = d.toNat ∧ units = others from ⟨Char.toNat_inj.mp codes.1, codes.2⟩
  unfold encodePoint at same
  split at same <;> split at same
  · obtain ⟨unit, later⟩ := List.cons.inj same
    exact ⟨toUInt16_inj (by omega) (by omega) unit, later⟩
  · -- a character is no half of a surrogate pair
    have unit := toUInt16_inj (by omega) (by omega) (List.cons.inj same).1
    omega
  · have unit := toUInt16_inj (by omega) (by omega) (List.cons.inj same).1
    omega
  · obtain ⟨leading, others⟩ := List.cons.inj same
    obtain ⟨trailing, later⟩ := List.cons.inj others
    have high := toUInt16_inj (by omega) (by omega) leading
    have low := toUInt16_inj (by omega) (by omega) trailing
    exact ⟨by omega, later⟩

theorem encodePoint_ne_nil (point : Nat) : encodePoint point ≠ [] := by
  unfold encodePoint
  split <;> simp

theorem codeUnits_injective : Function.Injective codeUnits := by
  intro first
  induction first with
  | nil =>
      intro second same
      cases second with
      | nil => rfl
      | cons d rest =>
          rw [codeUnits_cons] at same
          exact absurd (List.append_eq_nil_iff.mp same.symm).1 (encodePoint_ne_nil _)
  | cons c rest ih =>
      intro second same
      cases second with
      | nil =>
          rw [codeUnits_cons] at same
          exact absurd (List.append_eq_nil_iff.mp same).1 (encodePoint_ne_nil _)
      | cons d others =>
          rw [codeUnits_cons, codeUnits_cons] at same
          obtain ⟨rfl, later⟩ := encodePoint_append_inj same
          rw [ih later]

/-! ## Escapes

Each reader gives what an escape stands for and the number of its characters after the
backslash. -/

def isOctalDigit (c : Char) : Bool :=
  '0' ≤ c && c ≤ '7'

/-- Up to three octal digits, as long as they stay below 256. -/
def octalEscape (text : List Char) : List UInt16 × Nat :=
  let most := if text.head?.any (· ≤ '3') then 3 else 2
  let digits := (text.take most).takeWhile isOctalDigit
  let value := digits.foldl (fun value c => 8 * value + (c.toNat - '0'.toNat)) 0
  ([value.toUInt16], digits.length)

/-- A letter and then `count` hexadecimal digits. -/
def unitEscape (count : Nat) (digits : List Char) : Option (List UInt16 × Nat) :=
  if digits.length < count then none
  else (Json.Reader.hexValue? (digits.take count)).map fun unit => ([unit.toUInt16], count + 1)

/-- The letter `u` and then hexadecimal digits in braces, after the opening one. -/
def pointEscape (text : List Char) : Option (List UInt16 × Nat) :=
  let digits := text.takeWhile (· != '\x7d')
  if digits.isEmpty || digits.length == text.length then none
  else
    (Json.Reader.hexValue? digits).bind fun point =>
      if point ≤ 0x10FFFF then some (encodePoint point, digits.length + 3) else none

/-- The control character that a letter stands for. Others stand for themselves. -/
def escapedChar (letter : Char) : Char :=
  if letter = 'b' then '\x08'
  else if letter = 't' then '\t'
  else if letter = 'n' then '\n'
  else if letter = 'v' then '\x0b'
  else if letter = 'f' then '\x0c'
  else if letter = 'r' then '\r'
  else letter

/-- What stands after a backslash. At the end of a line it stands for nothing, and the
string goes on in the next line. -/
def readEscape : List Char → Option (List UInt16 × Nat)
  | [] => none
  | '\r' :: '\n' :: _ => some ([], 2)
  | 'x' :: rest => unitEscape 2 rest
  | 'u' :: '\x7b' :: rest => pointEscape rest
  | 'u' :: rest => unitEscape 4 rest
  | c :: rest =>
      if isLineTerminator c then some ([], 1)
      else if isOctalDigit c then some (octalEscape (c :: rest))
      else some (encodePoint (escapedChar c).toNat, 1)

/-! ## Whole literals -/

/-- The value of a string after its opening quote, and what follows the closing one.
Of the characters that end a line, `U+2028` and `U+2029` may stand in a string. -/
def readCharacters : List Char → Option (List UInt16 × List Char)
  | [] => none
  | c :: rest =>
      if c = '\'' then some ([], rest)
      else if c = '\n' ∨ c = '\r' then none
      else if c = '\\' then
        (readEscape rest).bind fun (units, size) =>
          (readCharacters (rest.drop size)).map (Prod.map (units ++ ·) id)
      else (readCharacters rest).map (Prod.map (encodePoint c.toNat ++ ·) id)
termination_by text => text.length
decreasing_by
  · rw [List.length_drop, List.length_cons]
    omega
  · exact Nat.lt_succ_self _

/-- The value of the single-quoted literal at the start of a text, and what follows it. -/
def readQuoted : List Char → Option (List UInt16 × List Char)
  | '\'' :: rest => readCharacters rest
  | _ => none

/-! ## Literals of enumeration values -/

theorem readCharacters_quotedChar {c : Char} (unbroken : ¬(c = '\n' ∨ c = '\r'))
    (rest : List Char) :
    readCharacters (quotedChar c ++ rest) =
      (readCharacters rest).map (Prod.map (encodePoint c.toNat ++ ·) id) := by
  by_cases backslash : c = '\\'
  · subst backslash
    rw [quotedChar, if_pos (.inl rfl), List.cons_append, readCharacters]
    rfl
  · by_cases quote : c = '\''
    · subst quote
      rw [quotedChar, if_pos (.inr rfl), List.cons_append, readCharacters]
      rfl
    · rw [quotedChar, if_neg (not_or.mpr ⟨backslash, quote⟩), List.singleton_append,
        readCharacters, if_neg quote, if_neg unbroken, if_neg backslash]

theorem readCharacters_lineBreak {c : Char} (broken : c = '\n' ∨ c = '\r') (rest : List Char) :
    readCharacters (quotedChar c ++ rest) = none := by
  have plain : ¬(c = '\\' ∨ c = '\'') := by
    rcases broken with rfl | rfl <;> decide
  rw [quotedChar, if_neg plain, List.singleton_append, readCharacters,
    if_neg (not_or.mp plain).2, if_pos broken]

theorem readCharacters_flatMap_quotedChar (text rest : List Char) :
    readCharacters (text.flatMap quotedChar ++ '\'' :: rest) =
      if '\n' ∈ text ∨ '\r' ∈ text then none else some (codeUnits text, rest) := by
  induction text with
  | nil =>
      rw [List.flatMap_nil, List.nil_append, readCharacters]
      rfl
  | cons c text ih =>
      rw [List.flatMap_cons, List.append_assoc]
      by_cases broken : c = '\n' ∨ c = '\r'
      · -- reading stops here, whatever the rest of the literal is
        have member : '\n' ∈ c :: text ∨ '\r' ∈ c :: text := by
          rcases broken with rfl | rfl <;> simp
        rw [readCharacters_lineBreak broken, if_pos member]
      · rw [readCharacters_quotedChar broken, ih, codeUnits_cons]
        obtain ⟨noFeed, noReturn⟩ := not_or.mp broken
        have members : ('\n' ∈ c :: text ∨ '\r' ∈ c :: text) ↔ ('\n' ∈ text ∨ '\r' ∈ text) := by
          simp [List.mem_cons, Ne.symm noFeed, Ne.symm noReturn]
        simp only [members]
        split
        · rfl
        · rfl

theorem readQuoted_literal (value : String) (rest : List Char) :
    readQuoted ((Enumeration.literal value).toList ++ rest) =
      if '\n' ∈ value.toList ∨ '\r' ∈ value.toList then none
      else some (codeUnits value.toList, rest) := by
  rw [toList_literal, List.cons_append, List.append_assoc]
  exact readCharacters_flatMap_quotedChar value.toList rest

/-- The literal of an enumeration value is read as one string that ends with the literal
and denotes the value if and only if there is no line break in the value. Whatever comes
after the literal, nothing that is read ends elsewhere or denotes another string. -/
theorem readQuoted_literal_iff (value : String) (rest : List Char) :
    (readQuoted ((Enumeration.literal value).toList ++ rest) =
        some (codeUnits value.toList, rest) ↔
      '\n' ∉ value.toList ∧ '\r' ∉ value.toList) ∧
    ∀ (units : List UInt16) (after : List Char),
      readQuoted ((Enumeration.literal value).toList ++ rest) = some (units, after) →
        after = rest ∧ ∀ other : String, units = codeUnits other.toList ↔ other = value := by
  rw [readQuoted_literal, ← not_or]
  split
  · next broken =>
      refine ⟨by simp [broken], ?_⟩
      intro units after read
      cases read
  · next unbroken =>
      refine ⟨by simp [unbroken], ?_⟩
      intro units after read
      obtain ⟨rfl, rfl⟩ := Prod.mk.inj (Option.some.inj read)
      refine ⟨rfl, fun other => ?_⟩
      rw [codeUnits_injective.eq_iff, String.toList_inj, eq_comm]

end Externs.JavaScript
