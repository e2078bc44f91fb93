import Externs.Proofs.Layout.CommentEnd

/-!
# The ink of a text

The ink of a text is what is left of it without its blanks. Prose is broken at blanks or
inside of words, and only blanks are dropped at a break, so the lines of a wrapped text
have the ink of the text.
-/

set_option autoImplicit false

namespace Externs

namespace Text

/-- A text without its blanks. -/
def ink (text : List Char) : List Char :=
  text.filter fun c => !isBlank c

@[simp]
theorem ink_nil : ink [] = [] :=
  rfl

@[simp]
theorem ink_append (left right : List Char) : ink (left ++ right) = ink left ++ ink right :=
  List.filter_append left right

theorem ink_of_blank {text : List Char} (blank : text.all isBlank = true) : ink text = [] := by
  rw [ink, List.filter_eq_nil_iff]
  simpa using blank

theorem ink_reverse (text : List Char) : ink text.reverse = (ink text).reverse :=
  List.filter_reverse

theorem ink_trimStart (text : List Char) : ink (trimStart text) = ink text := by
  have dropped : ink (text.takeWhile isBlank) = [] := ink_of_blank (List.all_takeWhile)
  calc ink (trimStart text)
      = ink (text.takeWhile isBlank) ++ ink (text.dropWhile isBlank) := by
        rw [dropped, List.nil_append, trimStart]
    _ = ink text := by rw [← ink_append, List.takeWhile_append_dropWhile]

theorem ink_trimEnd (text : List Char) : ink (trimEnd text) = ink text := by
  have start := ink_trimStart text.reverse
  rw [trimStart] at start
  rw [trimEnd, ink_reverse, start, ink_reverse, List.reverse_reverse]

end Text

namespace Layout

open Text

/-- Splitting off a line drops blanks only. -/
theorem SplitsOff.ink_eq {limit : Nat} {text line rest : List Char}
    (splits : SplitsOff limit text line rest) : ink line ++ ink rest = ink text := by
  cases splits with
  | whole fits => rw [ink_nil, List.append_nil]
  | @space line rest broken fits =>
      have space : ink [' '] = [] := rfl
      calc ink (trimEnd line) ++ ink (trimStart rest)
          = ink (line ++ [' '] ++ rest) := by
            rw [ink_trimEnd, ink_trimStart, ink_append, ink_append, space, List.append_nil]
        _ = ink text := by rw [broken, List.append_assoc, List.singleton_append]
  | inWord long unspaced => rw [ink_trimStart, ← ink_append, List.take_append_drop]

theorem ink_splitLine (limit : Nat) (text : List Char) :
    ink (splitLine limit text).1 ++ ink (splitLine limit text).2 = ink text :=
  (splitsOff_splitLine limit text).ink_eq

/-- No character is lost, repeated or moved when a text is wrapped. -/
theorem ink_wrap (limit : Nat) (text : List Char) : (wrap limit text).flatMap ink = ink text := by
  fun_induction wrap limit text with
  | case1 => rfl
  | case2 text more split ih => rw [List.flatMap_cons, ih, ink_splitLine]

/-- A hanging indent adds no ink. -/
theorem flatMap_ink_hanging (hanging : Nat) (lines : List (List Char)) :
    ((lines.map fun line => spaces hanging ++ String.ofList line).flatMap fun body =>
        ink body.toList) = lines.flatMap ink := by
  have indent : ink (spaces hanging).toList = [] := ink_of_blank (by simp [spaces, isBlank])
  simp only [List.flatMap_map, String.toList_append, String.toList_ofList, ink_append, indent,
    List.nil_append]

end Layout

end Externs
