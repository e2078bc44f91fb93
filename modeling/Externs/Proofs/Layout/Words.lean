import Externs.Proofs.Layout.Wrapped

/-!
# Words of wrapped prose

A text whose words all fit is broken at spaces only, so no word is cut, and the lines
have the words of the text in order. Blanks at a break are dropped on both sides of it;
a line neither starts nor ends with one, apart from its indent.
-/

set_option autoImplicit false

namespace Externs

/-! ## Words and ends of texts -/

namespace Text

/-- The words of a text, which stand between its blanks. -/
def words (text : List Char) : List (List Char) :=
  (text.splitOnP isBlank).filter fun word => !word.isEmpty

theorem words_append_blank {c : Char} (blank : isBlank c = true) (left right : List Char) :
    words (left ++ c :: right) = words left ++ words right := by
  rw [words, List.splitOnP_append_cons left right blank, List.filter_append]
  rfl

theorem words_append_of_blank {blanks : List Char} (blank : blanks.all isBlank = true)
    (text : List Char) : words (blanks ++ text) = words text := by
  induction blanks with
  | nil => rfl
  | cons c rest ih =>
      rw [List.all_cons, Bool.and_eq_true] at blank
      have first := words_append_blank blank.1 [] (rest ++ text)
      rw [List.cons_append]
      exact first.trans (ih blank.2)

theorem words_of_append_blank {blanks : List Char} (blank : blanks.all isBlank = true)
    (text : List Char) : words (text ++ blanks) = words text := by
  cases blanks with
  | nil => rw [List.append_nil]
  | cons c rest =>
      rw [List.all_cons, Bool.and_eq_true] at blank
      have none : words rest = [] := by
        have all := words_append_of_blank blank.2 []
        rw [List.append_nil] at all
        exact all
      rw [words_append_blank blank.1, none, List.append_nil]

theorem words_trimStart (text : List Char) : words (trimStart text) = words text := by
  have dropped := words_append_of_blank (List.all_takeWhile (p := isBlank) (l := text))
    (text.dropWhile isBlank)
  rw [List.takeWhile_append_dropWhile] at dropped
  exact dropped.symm

theorem exists_blanks_trimEnd (text : List Char) :
    ∃ blanks, blanks.all isBlank = true ∧ text = trimEnd text ++ blanks := by
  refine ⟨(text.reverse.takeWhile isBlank).reverse, ?_, ?_⟩
  · rw [List.all_reverse]
    exact List.all_takeWhile
  · rw [trimEnd, ← List.reverse_append, List.takeWhile_append_dropWhile, List.reverse_reverse]

theorem words_trimEnd (text : List Char) : words (trimEnd text) = words text := by
  obtain ⟨blanks, blank, whole⟩ := exists_blanks_trimEnd text
  have dropped := words_of_append_blank blank (trimEnd text)
  rw [← whole] at dropped
  exact dropped.symm

def StartsInInk (text : List Char) : Prop :=
  ∀ c ∈ text.head?, isBlank c = false

def EndsInInk (text : List Char) : Prop :=
  ∀ c ∈ text.getLast?, isBlank c = false

theorem startsInInk_trimStart (text : List Char) : StartsInInk (trimStart text) := by
  intro c first
  have stopped := List.head?_dropWhile_not isBlank text
  rw [trimStart, Option.mem_def] at first
  rwa [first] at stopped

theorem endsInInk_trimEnd (text : List Char) : EndsInInk (trimEnd text) := by
  intro c last
  rw [trimEnd, List.getLast?_reverse] at last
  exact startsInInk_trimStart text.reverse c last

theorem StartsInInk.of_isPrefix {line text : List Char} (starts : StartsInInk text)
    (front : line <+: text) : StartsInInk line := by
  obtain ⟨rest, rfl⟩ := front
  intro c first
  refine starts c ?_
  rw [Option.mem_def] at first ⊢
  rw [List.head?_append, first, Option.some_or]

theorem EndsInInk.of_isSuffix {rest text : List Char} (ends : EndsInInk text)
    (back : rest <:+ text) : EndsInInk rest := by
  obtain ⟨line, rfl⟩ := back
  intro c last
  refine ends c ?_
  rw [Option.mem_def] at last ⊢
  rw [List.getLast?_append, last, Option.some_or]

theorem trimEnd_ne_nil {text : List Char} (starts : StartsInInk text) (filled : text ≠ []) :
    trimEnd text ≠ [] := by
  intro empty
  cases text with
  | nil => exact filled rfl
  | cons c rest =>
      rw [trimEnd, List.reverse_eq_nil_iff, List.dropWhile_eq_nil_iff] at empty
      have blank := empty c (List.mem_reverse.mpr List.mem_cons_self)
      rw [starts c rfl] at blank
      cases blank

end Text

namespace Layout

open Text

theorem getLast?_escapeCommentEnd (text : List Char) :
    (escapeCommentEnd text).getLast? = text.getLast? := by
  fun_induction escapeCommentEnd text with
  | case1 rest ih => simp [List.getLast?_cons, ih]
  | case2 c rest other ih => rw [List.getLast?_cons, List.getLast?_cons, ih]
  | case3 => rfl

/-! ## Texts that are broken at spaces -/

/-- All runs of characters that are no spaces have at most the given length. -/
def Breakable (limit : Nat) (text : List Char) : Prop :=
  ∀ run ∈ text.splitOn ' ', run.length ≤ limit

instance (limit : Nat) (text : List Char) : Decidable (Breakable limit text) :=
  inferInstanceAs (Decidable (∀ run ∈ text.splitOn ' ', run.length ≤ limit))

/-- A text that does not fit has a space to be broken at. -/
def HasBreak (limit : Nat) (text : List Char) : Prop :=
  limit < text.length → ' ' ∈ text.take (limit + 1)

section

variable {limit : Nat} {text line rest : List Char}

theorem Breakable.hasBreak (breakable : Breakable limit text) : HasBreak limit text := by
  intro long
  by_cases spaced : ' ' ∈ text
  · obtain ⟨run, later, rfl, unspaced⟩ := List.eq_append_cons_of_mem spaced
    have fits : run.length ≤ limit := by
      apply breakable
      rw [List.splitOn_append_cons_self_of_not_mem unspaced]
      exact List.mem_cons_self
    rw [List.take_append, List.mem_append]
    right
    obtain ⟨left, counted⟩ : ∃ left, limit + 1 - run.length = left + 1 :=
      ⟨limit - run.length, by omega⟩
    rw [counted, List.take_succ_cons]
    exact List.mem_cons_self
  · have fits : text.length ≤ limit := by
      apply breakable
      rw [List.splitOn_eq_singleton spaced]
      exact List.mem_singleton_self text
    omega

theorem Breakable.of_cons {c : Char} (breakable : Breakable limit (c :: text)) :
    Breakable limit text := by
  intro run member
  rw [Breakable, List.splitOn_cons_eq_if_modifyHead] at breakable
  split at breakable
  · exact breakable run (List.mem_cons_of_mem _ member)
  · cases parts : text.splitOn ' ' with
    | nil => exact absurd parts (List.splitOn_ne_nil _ _)
    | cons first more =>
        rw [parts] at breakable member
        cases List.mem_cons.mp member with
        | inl head =>
            have longer := breakable (c :: first) List.mem_cons_self
            rw [head]
            exact Nat.le_of_succ_le longer
        | inr later => exact breakable run (List.mem_cons_of_mem _ later)

theorem Breakable.of_isSuffix (breakable : Breakable limit text) (back : rest <:+ text) :
    Breakable limit rest := by
  obtain ⟨front, rfl⟩ := back
  induction front with
  | nil => exact breakable
  | cons c front ih => exact ih breakable.of_cons

/-! ## Lines -/

theorem SplitsOff.words_eq (splits : SplitsOff limit text line rest)
    (hasBreak : HasBreak limit text) : words line ++ words rest = words text := by
  cases splits with
  | whole fits => exact List.append_nil _
  | space broken fits =>
      rw [words_trimEnd, words_trimStart, broken]
      exact (words_append_blank rfl _ _).symm
  | inWord long unspaced => exact absurd (hasBreak long) unspaced

theorem SplitsOff.endsInInk (splits : SplitsOff limit text line rest)
    (hasBreak : HasBreak limit text) (ends : EndsInInk text) : EndsInInk line := by
  cases splits with
  | whole fits => exact ends
  | space broken fits => exact endsInInk_trimEnd _
  | inWord long unspaced => exact absurd (hasBreak long) unspaced

theorem SplitsOff.startsInInk (splits : SplitsOff limit text line rest) : StartsInInk rest := by
  cases splits with
  | whole fits => exact fun c first => nomatch first
  | space broken fits => exact startsInInk_trimStart _
  | inWord long unspaced => exact startsInInk_trimStart _

theorem SplitsOff.line_ne_nil (splits : SplitsOff limit text line rest)
    (hasBreak : HasBreak limit text) (starts : StartsInInk text) (filled : text ≠ []) :
    line ≠ [] := by
  cases splits with
  | whole fits => exact filled
  | @space line rest broken fits =>
      have front : line <+: text := ⟨_, broken.symm⟩
      refine trimEnd_ne_nil (starts.of_isPrefix front) ?_
      rintro rfl
      -- The text would start with the space that it is broken at.
      have blank := starts ' ' (by rw [broken]; rfl)
      cases blank
  | inWord long unspaced => exact absurd (hasBreak long) unspaced

theorem words_wrap (breakable : Breakable (limit + 1) text) :
    (wrap limit text).flatMap words = words text := by
  fun_induction wrap limit text with
  | case1 => rfl
  | case2 text more split ih =>
      have splits := splitsOff_splitLine (limit + 1) text
      rw [List.flatMap_cons, ih (breakable.of_isSuffix splits.isSuffix)]
      exact splits.words_eq breakable.hasBreak

/-- The lines of a text that starts and ends in ink start and end in ink. -/
theorem inked_of_mem_wrap (breakable : Breakable (limit + 1) text) (starts : StartsInInk text)
    (ends : EndsInInk text) (member : line ∈ wrap limit text) :
    line ≠ [] ∧ StartsInInk line ∧ EndsInInk line := by
  fun_induction wrap limit text with
  | case1 => cases member
  | case2 text more split ih =>
      have splits := splitsOff_splitLine (limit + 1) text
      cases List.mem_cons.mp member with
      | inl first =>
          rw [first]
          exact ⟨splits.line_ne_nil breakable.hasBreak starts more,
            starts.of_isPrefix splits.isPrefix, splits.endsInInk breakable.hasBreak ends⟩
      | inr later =>
          exact ih (breakable.of_isSuffix splits.isSuffix) splits.startsInInk
            (ends.of_isSuffix splits.isSuffix) later

end

/-! ## Prose -/

/-- Prose whose words stand on its lines in order. If the text does not end in a blank,
neither does what is added to a line, and each line after the first one has its indent and
then a character that is not blank. -/
structure KeepsWords (margin : Margin) (hanging : Nat) (content first : String)
    (bodies : List String) : Prop where
  words : ((first :: bodies).flatMap fun body => Text.words body.toList) =
    Text.words (escaped content).toList
  ends : EndsInInk content.toList → ∀ body ∈ first :: bodies, EndsInInk body.toList
  hangs : EndsInInk content.toList → ∀ body ∈ bodies, ∃ c more, isBlank c = false ∧
    margin.apply body = margin.text ++ spaces hanging ++ String.ofList (c :: more)

namespace Listing

variable (listing : Listing)

theorem words_restBodies {rest : List Char} {hanging : Nat}
    (room : listing.margin.text.length + hanging < listing.width)
    (breakable : Breakable (listing.width - (listing.margin.text.length + hanging)) rest) :
    ((listing.restBodies rest hanging).flatMap fun body => Text.words body.toList) =
      Text.words rest := by
  have indent (line : List Char) :
      Text.words (spaces hanging ++ String.ofList line).toList = Text.words line := by
    rw [String.toList_append, spaces, String.toList_ofList, String.toList_ofList]
    exact words_append_of_blank (by simp [isBlank]) line
  rw [restBodies, List.flatMap_map, List.flatMap_congr fun line _ => indent line]
  exact words_wrap (by rwa [Nat.sub_add_cancel (by omega)])

/-- A body after the first line is its indent and a line in ink. -/
theorem exists_inked_of_mem_restBodies {rest : List Char} {hanging : Nat}
    (room : listing.margin.text.length + hanging < listing.width)
    (breakable : Breakable (listing.width - (listing.margin.text.length + hanging)) rest)
    (starts : StartsInInk rest) (ends : EndsInInk rest) {body : String}
    (member : body ∈ listing.restBodies rest hanging) :
    ∃ c more, isBlank c = false ∧ EndsInInk (c :: more) ∧
      body = spaces hanging ++ String.ofList (c :: more) := by
  obtain ⟨line, found, rfl⟩ := List.mem_map.mp member
  obtain ⟨filled, first, last⟩ :=
    inked_of_mem_wrap (by rwa [Nat.sub_add_cancel (by omega)]) starts ends found
  cases line with
  | nil => exact absurd rfl filled
  | cons c more => exact ⟨c, more, first c rfl, last, rfl⟩

theorem keepsWords_prose {content : String} {hanging room : Nat}
    (space : listing.margin.text.length + hanging < listing.width)
    (breakable : Breakable (listing.width - (listing.margin.text.length + hanging))
      (escaped content).toList)
    (hasBreak : HasBreak room (escaped content).toList) :
    KeepsWords listing.margin hanging content (listing.prose room hanging content).1
      (listing.prose room hanging content).2 := by
  have splits := splitsOff_splitLine room (escaped content).toList
  have later := breakable.of_isSuffix splits.isSuffix
  have inked (ends : EndsInInk content.toList) : EndsInInk (escaped content).toList := by
    rwa [EndsInInk, escaped, String.toList_ofList, getLast?_escapeCommentEnd]
  have bodies (ends : EndsInInk content.toList) {body : String}
      (member : body ∈ (listing.prose room hanging content).2) :=
    listing.exists_inked_of_mem_restBodies space later splits.startsInInk
      ((inked ends).of_isSuffix splits.isSuffix) member
  refine ⟨?_, ?_, ?_⟩
  · simp only [prose, List.flatMap_cons, String.toList_ofList]
    rw [listing.words_restBodies space later]
    exact splits.words_eq hasBreak
  · intro ends body member
    cases List.mem_cons.mp member with
    | inl first =>
        rw [first, prose, String.toList_ofList]
        exact splits.endsInInk hasBreak (inked ends)
    | inr found =>
        obtain ⟨c, more, -, last, rfl⟩ := bodies ends found
        rw [String.toList_append, String.toList_ofList]
        intro d final
        refine last d ?_
        rw [Option.mem_def, List.getLast?_append] at final
        simpa [List.getLast?_cons] using final
  · intro ends body member
    obtain ⟨c, more, inked, -, rfl⟩ := bodies ends member
    refine ⟨c, more, inked, ?_⟩
    rw [Margin.apply, if_neg (by simp), String.append_assoc]

/-- Wrapping cuts no word that fits between the hanging indent and the width, and leaves
no stray blanks. Text that goes on in a line starts with a space there. -/
theorem prose_keeps_words (content : String) (hanging : Nat)
    (space : listing.margin.text.length + hanging < listing.width)
    (breakable : Breakable (listing.width - (listing.margin.text.length + hanging))
      (escaped content).toList) :
    (hanging = 0 →
      ∃ (first : String) (bodies : List String),
        (listing.comment content).lines =
            listing.lines ++ (first :: bodies).map listing.margin.apply ∧
          KeepsWords listing.margin 0 content first bodies) ∧
      (content.toList.head? = some ' ' →
        ∃ (before : List String) (start first : String) (bodies : List String),
          (listing.lines = before ++ [start] ∨ listing.lines = [] ∧ before = [] ∧ start = "") ∧
            (listing.commentInline content hanging).lines =
              before ++ (start ++ first) :: bodies.map listing.margin.apply ∧
            KeepsWords listing.margin hanging content first bodies) := by
  constructor
  · rintro rfl
    exact ⟨_, _, listing.lines_comment content,
      listing.keepsWords_prose space breakable breakable.hasBreak⟩
  · intro leading
    obtain ⟨before, start, found, written⟩ := listing.exists_lines_commentInline content hanging
    refine ⟨before, start, _, _, found, written,
      listing.keepsWords_prose space breakable fun _ => ?_⟩
    -- However little room is left, the first space is within it.
    rw [← head?_escapeCommentEnd] at leading
    obtain ⟨more, opened⟩ := List.head?_eq_some_iff.mp leading
    rw [escaped, String.toList_ofList, opened, List.take_succ_cons]
    exact List.mem_cons_self

/-- A tag that leaves little room in its line. -/
def tightListing : Listing :=
  { backwards := [" * @param \x7bx\x7d y"], margin := { marks := [" * "] }, width := 20 }

theorem prose_keeps_words_tightListing :
    (∃ (first : String) (bodies : List String),
      (tightListing.comment "alpha  beta */ gamma").lines =
          tightListing.lines ++ (first :: bodies).map tightListing.margin.apply ∧
        KeepsWords tightListing.margin 0 "alpha  beta */ gamma" first bodies) ∧
      ∃ (before : List String) (start first : String) (bodies : List String),
        (tightListing.lines = before ++ [start] ∨
            tightListing.lines = [] ∧ before = [] ∧ start = "") ∧
          (tightListing.commentInline " alpha  beta */ gamma" 4).lines =
            before ++ (start ++ first) :: bodies.map tightListing.margin.apply ∧
          KeepsWords tightListing.margin 4 " alpha  beta */ gamma" first bodies :=
  ⟨(tightListing.prose_keeps_words "alpha  beta */ gamma" 0 (by decide) (by decide)).1 rfl,
    (tightListing.prose_keeps_words " alpha  beta */ gamma" 4 (by decide) (by decide)).2 rfl⟩

end Listing

end Layout

end Externs
