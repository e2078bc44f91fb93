import Externs.Enumeration
import Mathlib

/-!
# Keys of enumeration values

A key is made in four passes: words are separated, other characters are masked, a digit
at the start is guarded, and the letters become capitals. The passes do not get in each
other's way. One pass does the same that looks at a character and the one before it.
-/

set_option autoImplicit false

namespace Externs.Enumeration

/-! ## One pass over the value -/

/-- What stands in the key for a character of the value. -/
def keyChar (c : Char) : Char :=
  if c.isAlpha then c.toUpper
  else if c.isDigit || c == '_' then c
  else '_'

/-- Whether an underscore is put in front of a character: of a capital after a small
letter, and of a digit with which the value starts. -/
def isSetOff (previous : Option Char) (c : Char) : Bool :=
  match previous with
  | some before => before.isLower && c.isUpper
  | none => c.isDigit

def onePass (previous : Option Char) : List Char → List Char
  | [] => []
  | c :: rest =>
      (if isSetOff previous c then ['_'] else []) ++ keyChar c :: onePass (some c) rest

theorem not_isLower_of_not_isAlpha {c : Char} (other : ¬c.isAlpha = true) :
    ¬c.isLower = true := by
  intro lower
  exact other (by simp [Char.isAlpha, lower])

theorem toUpper_masked (c : Char) :
    (if isWordChar c then c else '_').toUpper = keyChar c := by
  by_cases letter : c.isAlpha = true
  · simp [isWordChar, keyChar, Char.isAlphanum, letter]
  · have small := not_isLower_of_not_isAlpha letter
    by_cases kept : (c.isDigit || c == '_') = true
    · have word : isWordChar c = true := by
        simpa [isWordChar, Char.isAlphanum, letter] using kept
      rw [if_pos word, Char.toUpper_eq_of_not_isLower small, keyChar, if_neg letter, if_pos kept]
    · have other : ¬isWordChar c = true := by
        simpa [isWordChar, Char.isAlphanum, letter] using kept
      rw [if_neg other, keyChar, if_neg letter, if_neg kept]
      rfl

theorem isDigit_masked (c : Char) :
    (if isWordChar c then c else '_').isDigit = c.isDigit := by
  by_cases digit : c.isDigit = true
  · simp [isWordChar, Char.isAlphanum, digit]
  · split
    · rfl
    · exact (Bool.not_eq_true _ ▸ digit).symm

theorem map_toUpper_maskOthers (text : List Char) :
    (maskOthers text).map Char.toUpper = text.map keyChar := by
  rw [maskOthers, List.map_map]
  exact List.map_congr_left fun c _ => toUpper_masked c

/-! ## The passes one after the other -/

/-- A capital does not end a small word, so it can be passed over. -/
theorem separateWords_of_isUpper {c : Char} (upper : c.isUpper = true) (rest : List Char) :
    separateWords (c :: rest) = c :: separateWords rest := by
  have capital := Char.not_isLower_of_isUpper upper
  cases rest with
  | nil => rfl
  | cons second rest => simp [separateWords, capital]

theorem separateWords_cons_cons (first second : Char) (rest : List Char) :
    separateWords (first :: second :: rest) =
      first :: ((if first.isLower && second.isUpper then ['_'] else []) ++
        separateWords (second :: rest)) := by
  by_cases boundary : (first.isLower && second.isUpper) = true
  · have upper : second.isUpper = true := (Bool.and_eq_true_iff.mp boundary).2
    simp only [separateWords, if_pos boundary]
    rw [separateWords_of_isUpper upper rest]
    rfl
  · simp only [separateWords, if_neg boundary]
    rfl

theorem map_keyChar_separateWords (c : Char) (rest : List Char) :
    (separateWords (c :: rest)).map keyChar = keyChar c :: onePass (some c) rest := by
  induction rest generalizing c with
  | nil => rfl
  | cons second rest ih =>
      rw [separateWords_cons_cons, List.map_cons, List.map_append, ih second, onePass, isSetOff]
      split
      · rfl
      · rfl

theorem guardDigit_cons (c : Char) (rest : List Char) :
    guardDigit (c :: rest) = (if c.isDigit then ['_'] else []) ++ c :: rest := by
  rw [guardDigit]
  split
  · rfl
  · rfl

theorem exists_separateWords_cons (c : Char) (rest : List Char) :
    ∃ more, separateWords (c :: rest) = c :: more := by
  cases rest with
  | nil => exact ⟨[], rfl⟩
  | cons second rest => exact ⟨_, separateWords_cons_cons c second rest⟩

theorem key_eq_onePass (value : String) :
    key value = String.ofList (onePass none value.toList) := by
  rw [key]
  apply congrArg String.ofList
  cases value.toList with
  | nil => rfl
  | cons c rest =>
      obtain ⟨more, first⟩ := exists_separateWords_cons c rest
      have whole := map_keyChar_separateWords c rest
      rw [← map_toUpper_maskOthers] at whole
      -- The guard sees the first character, which the passes before it leave in its place.
      rw [onePass, ← whole, first, maskOthers, List.map_cons, guardDigit_cons, isDigit_masked,
        List.map_append, isSetOff]
      split
      · rfl
      · rfl

/-! ## Identifiers in capitals -/

def isKeyStart (c : Char) : Bool :=
  c.isUpper || c == '_'

def isKeyPart (c : Char) : Bool :=
  isKeyStart c || c.isDigit

/-- A capital or an underscore, and then capitals, underscores and digits. -/
def isKey : List Char → Bool
  | [] => false
  | c :: rest => isKeyStart c && rest.all isKeyPart

theorem not_isAlpha_of_isDigit {c : Char} (digit : c.isDigit = true) : ¬c.isAlpha = true := by
  simp only [Char.isDigit, Char.isAlpha, Char.isUpper, Char.isLower, Bool.and_eq_true,
    Bool.or_eq_true, decide_eq_true_eq, ge_iff_le, UInt32.le_iff_toNat_le] at digit ⊢
  grind

theorem keyChar_of_isDigit {c : Char} (digit : c.isDigit = true) : keyChar c = c := by
  simp [keyChar, not_isAlpha_of_isDigit digit, digit]

theorem not_isDigit_of_isKeyStart {c : Char} (start : isKeyStart c = true) :
    ¬c.isDigit = true := by
  intro digit
  have noLetter := not_isAlpha_of_isDigit digit
  rcases Bool.or_eq_true_iff.mp start with upper | underscore
  · exact noLetter (by simp [Char.isAlpha, upper])
  · rw [beq_iff_eq.mp underscore] at digit
    exact absurd digit (by decide)

theorem keyChar_of_isKeyStart {c : Char} (start : isKeyStart c = true) : keyChar c = c := by
  rcases Bool.or_eq_true_iff.mp start with upper | underscore
  · have capital := Char.not_isLower_of_isUpper upper
    simp [keyChar, Char.isAlpha, upper, Char.toUpper_eq_of_not_isLower capital]
  · rw [beq_iff_eq.mp underscore]
    rfl

theorem isKeyStart_keyChar {c : Char} (noDigit : ¬c.isDigit = true) :
    isKeyStart (keyChar c) = true := by
  by_cases letter : c.isAlpha = true
  · simp [isKeyStart, keyChar, letter]
  · by_cases underscore : c = '_'
    · rw [underscore]
      rfl
    · simp [isKeyStart, keyChar, letter, noDigit, underscore]

theorem isKeyPart_keyChar (c : Char) : isKeyPart (keyChar c) = true := by
  by_cases digit : c.isDigit = true
  · rw [keyChar_of_isDigit digit, isKeyPart, digit, Bool.or_true]
  · rw [isKeyPart, isKeyStart_keyChar digit, Bool.true_or]

theorem not_isLower_of_isKeyPart {c : Char} (part : isKeyPart c = true) :
    ¬c.isLower = true := by
  rcases Bool.or_eq_true_iff.mp part with start | digit
  · rcases Bool.or_eq_true_iff.mp start with upper | underscore
    · exact Char.not_isLower_of_isUpper upper
    · rw [beq_iff_eq.mp underscore]
      decide
  · exact not_isLower_of_not_isAlpha (not_isAlpha_of_isDigit digit)

theorem all_onePass (previous : Option Char) (text : List Char) :
    (onePass previous text).all isKeyPart = true := by
  induction text generalizing previous with
  | nil => rfl
  | cons c rest ih =>
      have guard : (if isSetOff previous c then ['_'] else []).all isKeyPart = true := by
        split <;> rfl
      simp only [onePass, List.all_append, List.all_cons, guard, isKeyPart_keyChar, ih,
        Bool.and_true]

theorem isKey_onePass (c : Char) (rest : List Char) :
    isKey (onePass none (c :: rest)) = true := by
  have others := all_onePass (some c) rest
  by_cases digit : c.isDigit = true
  · simp [onePass, isSetOff, digit, isKey, isKeyPart_keyChar, others, isKeyStart]
  · simp [onePass, isSetOff, digit, isKey, isKeyStart_keyChar digit, others]

/-- Where all letters are capitals no word is separated and no character is changed. -/
theorem onePass_of_parts {previous : Char} {text : List Char}
    (large : ¬previous.isLower = true) (parts : text.all isKeyPart = true) :
    onePass (some previous) text = text := by
  induction text generalizing previous with
  | nil => rfl
  | cons c rest ih =>
      obtain ⟨part, others⟩ := Bool.and_eq_true_iff.mp parts
      have joined : isSetOff (some previous) c = false := by simp [isSetOff, large]
      have same : keyChar c = c := by
        rcases Bool.or_eq_true_iff.mp part with start | digit
        · exact keyChar_of_isKeyStart start
        · exact keyChar_of_isDigit digit
      simp [onePass, joined, same, ih (not_isLower_of_isKeyPart part) others]

theorem onePass_of_isKey {text : List Char} (identifier : isKey text = true) :
    onePass none text = text := by
  cases text with
  | nil => rfl
  | cons c rest =>
      obtain ⟨start, others⟩ := Bool.and_eq_true_iff.mp identifier
      have part : isKeyPart c = true := by rw [isKeyPart, start, Bool.true_or]
      have joined : isSetOff none c = false := by
        simpa [isSetOff] using not_isDigit_of_isKeyStart start
      simp [onePass, joined, keyChar_of_isKeyStart start,
        onePass_of_parts (not_isLower_of_isKeyPart part) others]

theorem isKey_key {value : String} (filled : value ≠ "") : isKey (key value).toList = true := by
  rw [key_eq_onePass, String.toList_ofList]
  cases letters : value.toList with
  | nil => exact absurd (String.toList_eq_nil_iff.mp letters) filled
  | cons c rest => exact isKey_onePass c rest

/-- A key is what one pass over the value makes, an identifier in capitals unless the value
is empty, and its own key. -/
theorem key_in_one_pass (value : String) :
    key value = String.ofList (onePass none value.toList) ∧
      (isKey (key value).toList = true ↔ value ≠ "") ∧ key (key value) = key value := by
  refine ⟨key_eq_onePass value, ⟨?_, isKey_key⟩, ?_⟩
  · rintro identifier rfl
    cases identifier
  · by_cases empty : value = ""
    · rw [empty]
      rfl
    · rw [key_eq_onePass (key value), onePass_of_isKey (isKey_key empty), String.ofList_toList]

end Externs.Enumeration
