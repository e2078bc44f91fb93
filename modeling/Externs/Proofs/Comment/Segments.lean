import Externs.Compile
import Externs.Proofs.Comment.Blanked
import Mathlib.Data.List.DropRight

/-!
# Segments of schema text

Schema text is a sequence of strings, comments and other characters, in one way only.
Blanking overwrites the bytes of the comments, except for their line feeds, and fails
where a block comment is not closed.
-/

set_option autoImplicit false

namespace Externs.Comment

open Json (Scans scans_code scans_quoted scans_line scans_comment scan_block_append)
open Text (size size_append)

/-! ## Segments -/

/-- A part of schema text. A string or a block comment that is not closed reaches to the
end of the text. -/
inductive Segment where
  | string (body : List Char) (closed : Bool)
  | line (body : List Char)
  | block (body : List Char) (closed : Bool)
  | other (c : Char)
  deriving DecidableEq, Repr

namespace Segment

def text : Segment → List Char
  | .string body true => '"' :: body ++ ['"']
  | .string body false => '"' :: body
  | .line body => '/' :: '/' :: body
  | .block body true => '/' :: '*' :: body ++ ['*', '/']
  | .block body false => '/' :: '*' :: body
  | .other c => [c]

def isComment : Segment → Bool
  | .line _ | .block _ _ => true
  | .string _ _ | .other _ => false

end Segment

/-- Whether a text ends with a backslash that is not the second one of a pair. -/
def Protects (front : List Char) : Prop :=
  (front.rtakeWhile (· == '\\')).length % 2 = 1

def EndsString (front back : List Char) : Prop :=
  back.head? = some '"' ∧ ¬ Protects front

def EndsLine (_front back : List Char) : Prop :=
  back.head? = some '\n'

def EndsBlock (_front back : List Char) : Prop :=
  ['*', '/'] <+: back

/-- The body reaches up to the first place that ends it, or to the end of the text. -/
def UpTo (ends : List Char → List Char → Prop) (body tail : List Char) : Prop :=
  (tail = [] ∨ ends body tail) ∧
    ∀ front back, body = front ++ back → back ≠ [] → ¬ ends front (back ++ tail)

/-- Whether a text that starts with the segment and goes on with `rest` is cut there. -/
def Segment.Leads (rest : List Char) : Segment → Prop
  | .string body true => UpTo EndsString body ('"' :: rest)
  | .string body false => UpTo EndsString body [] ∧ rest = []
  | .line body => UpTo EndsLine body rest
  | .block body true => UpTo EndsBlock body ('*' :: '/' :: rest)
  | .block body false => UpTo EndsBlock body [] ∧ rest = []
  | .other c => c ≠ '"' ∧ ¬ (c = '/' ∧ (rest.head? = some '/' ∨ rest.head? = some '*'))

/-- How a text is cut into segments, from left to right. -/
inductive Splits : List Char → List Segment → Prop
  | nil : Splits [] []
  | cons {segment : Segment} {rest : List Char} {segments : List Segment}
      (leads : segment.Leads rest) (more : Splits rest segments) :
      Splits (segment.text ++ rest) (segment :: segments)

theorem upTo_iff_take {ends : List Char → List Char → Prop} {body tail : List Char} :
    UpTo ends body tail ↔
      (tail = [] ∨ ends body tail) ∧
        ∀ count < body.length, ¬ ends (body.take count) (body.drop count ++ tail) := by
  refine and_congr_right fun _ => ?_
  constructor
  · intro first count less
    apply first _ _ (List.take_append_drop count body).symm
    simpa using less
  · intro first front back split filled
    subst split
    have less : front.length < (front ++ back).length := by
      simpa using List.length_pos_iff.mpr filled
    simpa using first front.length less

instance (front : List Char) : Decidable (Protects front) :=
  inferInstanceAs (Decidable ((front.rtakeWhile (· == '\\')).length % 2 = 1))

instance (front back : List Char) : Decidable (EndsString front back) :=
  inferInstanceAs (Decidable (back.head? = some '"' ∧ ¬ Protects front))

instance (front back : List Char) : Decidable (EndsLine front back) :=
  inferInstanceAs (Decidable (back.head? = some '\n'))

instance (front back : List Char) : Decidable (EndsBlock front back) :=
  inferInstanceAs (Decidable (['*', '/'] <+: back))

instance (ends : List Char → List Char → Prop) [∀ front back, Decidable (ends front back)]
    (body tail : List Char) : Decidable (UpTo ends body tail) :=
  decidable_of_iff _ upTo_iff_take.symm

instance (rest : List Char) : (segment : Segment) → Decidable (segment.Leads rest)
  | .string body true => inferInstanceAs (Decidable (UpTo EndsString body ('"' :: rest)))
  | .string body false => inferInstanceAs (Decidable (UpTo EndsString body [] ∧ rest = []))
  | .line body => inferInstanceAs (Decidable (UpTo EndsLine body rest))
  | .block body true => inferInstanceAs (Decidable (UpTo EndsBlock body ('*' :: '/' :: rest)))
  | .block body false => inferInstanceAs (Decidable (UpTo EndsBlock body [] ∧ rest = []))
  | .other c =>
      inferInstanceAs (Decidable
        (c ≠ '"' ∧ ¬ (c = '/' ∧ (rest.head? = some '/' ∨ rest.head? = some '*'))))

/-! ## One way to cut a text -/

section

variable {ends : List Char → List Char → Prop}

theorem exists_upTo (ends : List Char → List Char → Prop) (text : List Char) :
    ∃ body tail, text = body ++ tail ∧ UpTo ends body tail := by
  induction text generalizing ends with
  | nil =>
      refine ⟨[], [], rfl, .inl rfl, ?_⟩
      intro front back empty filled
      exact absurd (List.nil_eq_append_iff.mp empty).2 filled
  | cons c rest ih =>
      by_cases here : ends [] (c :: rest)
      · refine ⟨[], c :: rest, rfl, .inr here, ?_⟩
        intro front back empty filled
        exact absurd (List.nil_eq_append_iff.mp empty).2 filled
      · -- behind the first character, the same place is found in what is left
        obtain ⟨body, tail, rfl, reached, first⟩ := ih fun front back => ends (c :: front) back
        refine ⟨c :: body, tail, rfl, reached, ?_⟩
        intro front back split filled
        cases front with
        | nil =>
            obtain rfl : c :: body = back := split
            exact here
        | cons d front =>
            obtain ⟨rfl, behind⟩ := List.cons.inj split
            exact first front back behind filled

theorem UpTo.eq_nil {body tail more later : List Char} (short : UpTo ends body (more ++ tail))
    (long : UpTo ends later tail) (split : later = body ++ more) : more = [] := by
  by_contra filled
  rcases short.1 with empty | stops
  · exact filled (List.append_eq_nil_iff.mp empty).1
  · exact long.2 body more split filled stops

theorem UpTo.unique {body tail body' tail' : List Char} (one : UpTo ends body tail)
    (two : UpTo ends body' tail') (same : body ++ tail = body' ++ tail') :
    body = body' ∧ tail = tail' := by
  rcases List.append_eq_append_iff.mp same with ⟨more, split, rest⟩ | ⟨more, split, rest⟩
  · subst rest
    obtain rfl := one.eq_nil two split
    exact ⟨by simpa using split.symm, rfl⟩
  · subst rest
    obtain rfl := two.eq_nil one split
    exact ⟨by simpa using split, rfl⟩

end

namespace Segment

/-- Another character opens neither a string nor a comment. -/
theorem not_leads_other {c : Char} {rest body : List Char}
    (opens : c :: rest = '"' :: body ∨ c :: rest = '/' :: '/' :: body ∨
      c :: rest = '/' :: '*' :: body) : ¬ (Segment.other c).Leads rest := by
  rintro ⟨noQuote, noComment⟩
  rcases opens with same | same | same <;> obtain ⟨rfl, rfl⟩ := List.cons.inj same
  · exact noQuote rfl
  · exact noComment ⟨rfl, .inl rfl⟩
  · exact noComment ⟨rfl, .inr rfl⟩

theorem Leads.exists_string {body rest : List Char} {closed : Bool}
    (leads : (string body closed).Leads rest) :
    ∃ tail, (string body closed).text ++ rest = '"' :: (body ++ tail) ∧
      UpTo EndsString body tail ∧ (closed = true ↔ tail ≠ []) := by
  cases closed with
  | false =>
      obtain ⟨upTo, rfl⟩ := leads
      exact ⟨[], rfl, upTo, by simp⟩
  | true => exact ⟨'"' :: rest, by simp [text], leads, by simp⟩

theorem Leads.exists_block {body rest : List Char} {closed : Bool}
    (leads : (block body closed).Leads rest) :
    ∃ tail, (block body closed).text ++ rest = '/' :: '*' :: (body ++ tail) ∧
      UpTo EndsBlock body tail ∧ (closed = true ↔ tail ≠ []) := by
  cases closed with
  | false =>
      obtain ⟨upTo, rfl⟩ := leads
      exact ⟨[], rfl, upTo, by simp⟩
  | true => exact ⟨'*' :: '/' :: rest, by simp [text], leads, by simp⟩

theorem Leads.unique {first second : Segment} {rest other : List Char}
    (one : first.Leads rest) (two : second.Leads other)
    (same : first.text ++ rest = second.text ++ other) : first = second := by
  cases first with
  | string body closed =>
      obtain ⟨tail, shape, upTo, closes⟩ := one.exists_string
      rw [shape] at same
      cases second with
      | string body' closed' =>
          obtain ⟨tail', shape', upTo', closes'⟩ := two.exists_string
          rw [shape'] at same
          obtain ⟨rfl, rfl⟩ := upTo.unique upTo' (List.cons.inj same).2
          obtain rfl : closed = closed' := Bool.eq_iff_iff.mpr (closes.trans closes'.symm)
          rfl
      | line body' => cases same
      | block body' closed' => cases closed' <;> cases same
      | other c => exact absurd two (not_leads_other (.inl same.symm))
  | line body =>
      cases second with
      | string body' closed' => cases closed' <;> cases same
      | line body' =>
          obtain ⟨rfl, -⟩ := UpTo.unique one two (List.cons.inj (List.cons.inj same).2).2
          rfl
      | block body' closed' => cases closed' <;> cases same
      | other c => exact absurd two (not_leads_other (.inr (.inl same.symm)))
  | block body closed =>
      obtain ⟨tail, shape, upTo, closes⟩ := one.exists_block
      rw [shape] at same
      cases second with
      | string body' closed' => cases closed' <;> cases same
      | line body' => cases same
      | block body' closed' =>
          obtain ⟨tail', shape', upTo', closes'⟩ := two.exists_block
          rw [shape'] at same
          obtain ⟨rfl, rfl⟩ := upTo.unique upTo' (List.cons.inj (List.cons.inj same).2).2
          obtain rfl : closed = closed' := Bool.eq_iff_iff.mpr (closes.trans closes'.symm)
          rfl
      | other c => exact absurd two (not_leads_other (.inr (.inr same.symm)))
  | other c =>
      cases second with
      | string body' closed' => cases closed' <;> exact absurd one (not_leads_other (.inl same))
      | line body' => exact absurd one (not_leads_other (.inr (.inl same)))
      | block body' closed' =>
          cases closed' <;> exact absurd one (not_leads_other (.inr (.inr same)))
      | other d =>
          obtain ⟨rfl, -⟩ := List.cons.inj same
          rfl

/-- Some segment stands in front of a text that is not empty. -/
theorem exists_leads (c : Char) (rest : List Char) :
    ∃ (segment : Segment) (later : List Char),
      c :: rest = segment.text ++ later ∧ segment.Leads later ∧ later.length ≤ rest.length := by
  by_cases quote : c = '"'
  · subst quote
    obtain ⟨body, tail, rfl, upTo⟩ := exists_upTo EndsString rest
    cases tail with
    | nil => exact ⟨string body false, [], by simp [text], ⟨upTo, rfl⟩, by simp⟩
    | cons d later =>
        rcases upTo.1 with empty | stops
        · cases empty
        · obtain rfl : d = '"' := Option.some.inj stops.1
          exact ⟨string body true, later, by simp [text], upTo, by simp; omega⟩
  · by_cases comment : c = '/' ∧ (rest.head? = some '/' ∨ rest.head? = some '*')
    · obtain ⟨rfl, line | block⟩ := comment
      · obtain ⟨inside, rfl⟩ := List.head?_eq_some_iff.mp line
        obtain ⟨body, tail, rfl, upTo⟩ := exists_upTo EndsLine inside
        exact ⟨Segment.line body, tail, by simp [text], upTo, by simp; omega⟩
      · obtain ⟨inside, rfl⟩ := List.head?_eq_some_iff.mp block
        obtain ⟨body, tail, rfl, upTo⟩ := exists_upTo EndsBlock inside
        rcases upTo.1 with rfl | ⟨later, rfl⟩
        · exact ⟨Segment.block body false, [], by simp [text], ⟨upTo, rfl⟩, by simp⟩
        · exact ⟨Segment.block body true, later, by simp [text], upTo, by simp; omega⟩
    · exact ⟨other c, rest, rfl, ⟨quote, comment⟩, Nat.le_refl _⟩

end Segment

theorem exists_splits (source : List Char) : ∃ segments, Splits source segments := by
  induction size : source.length using Nat.strong_induction_on generalizing source with
  | h count ih =>
      cases source with
      | nil => exact ⟨[], .nil⟩
      | cons c rest =>
          obtain ⟨segment, later, split, leads, shorter⟩ := Segment.exists_leads c rest
          have less : later.length < count := by
            rw [← size]
            exact Nat.lt_succ_of_le shorter
          obtain ⟨segments, more⟩ := ih later.length less later rfl
          rw [split]
          exact ⟨segment :: segments, .cons leads more⟩

theorem Segment.text_ne_nil (segment : Segment) : segment.text ≠ [] := by
  cases segment with
  | string body closed => cases closed <;> exact List.cons_ne_nil _ _
  | line body => exact List.cons_ne_nil _ _
  | block body closed => cases closed <;> exact List.cons_ne_nil _ _
  | other c => exact List.cons_ne_nil _ _

theorem Splits.unique {source text : List Char} {segments others : List Segment}
    (one : Splits source segments) (two : Splits text others) (same : source = text) :
    segments = others := by
  induction one generalizing text others with
  | nil =>
      cases two with
      | nil => rfl
      | @cons segment rest others leads more =>
          exact absurd (List.nil_eq_append_iff.mp same).1 segment.text_ne_nil
  | @cons segment rest segments leads more ih =>
      cases two with
      | nil => exact absurd (List.append_eq_nil_iff.mp same).1 segment.text_ne_nil
      | @cons other rest' others leads' more' =>
          obtain rfl := leads.unique leads' same
          rw [ih more' (List.append_cancel_left same)]

/-! ## How segments are blanked -/

/-- What stands in front of a text matters only if the text is all backslashes. -/
theorem length_rtakeWhile_append (p : Char → Bool) (start front : List Char) :
    ((start ++ front).rtakeWhile p).length =
      if (front.rtakeWhile p).length = front.length then front.length + (start.rtakeWhile p).length
      else (front.rtakeWhile p).length := by
  simp only [List.rtakeWhile, List.reverse_append, List.takeWhile_append, List.length_reverse]
  split <;> simp

theorem protects_append (start front : List Char)
    (even : (start.rtakeWhile (· == '\\')).length % 2 = 0) :
    Protects (start ++ front) ↔ Protects front := by
  unfold Protects
  rw [length_rtakeWhile_append]
  split <;> omega

theorem protects_cons {c : Char} (noEscape : c ≠ '\\') (front : List Char) :
    Protects (c :: front) ↔ Protects front :=
  protects_append [c] front (by simp [List.rtakeWhile, noEscape])

theorem protects_escape (c : Char) (front : List Char) :
    Protects ('\\' :: c :: front) ↔ Protects front := by
  apply protects_append ['\\', c] front
  by_cases escape : c = '\\' <;> simp [List.rtakeWhile, escape]

def Unended (body : List Char) : Prop :=
  ∀ front back, body = front ++ '"' :: back → Protects front

theorem UpTo.unended {body tail : List Char} (upTo : UpTo EndsString body tail) :
    Unended body := by
  intro front back split
  by_contra free
  exact upTo.2 front ('"' :: back) split (List.cons_ne_nil _ _) ⟨rfl, free⟩

theorem UpTo.unclosed {body tail : List Char} (upTo : UpTo EndsBlock body tail) :
    ¬ ['*', '/'] <:+: body := by
  rintro ⟨front, back, split⟩
  have shape : body = front ++ (['*', '/'] ++ back) := by rw [← split, List.append_assoc]
  apply upTo.2 front (['*', '/'] ++ back) shape (List.cons_ne_nil _ _)
  rw [List.append_assoc]
  exact List.prefix_append _ _

theorem UpTo.single {body tail : List Char} (upTo : UpTo EndsLine body tail) : '\n' ∉ body := by
  intro member
  obtain ⟨front, back, split⟩ := List.append_of_mem member
  exact upTo.2 front ('\n' :: back) split (List.cons_ne_nil _ _) rfl

theorem Unended.of_escape {c : Char} {rest : List Char} (unended : Unended ('\\' :: c :: rest)) :
    Unended rest := by
  rintro front back rfl
  exact (protects_escape c front).mp (unended ('\\' :: c :: front) back rfl)

theorem Unended.of_cons {c : Char} {rest : List Char} (noEscape : c ≠ '\\')
    (unended : Unended (c :: rest)) : c ≠ '"' ∧ Unended rest := by
  constructor
  · rintro rfl
    cases unended [] rest rfl
  · rintro front back rfl
    exact (protects_cons noEscape front).mp (unended (c :: front) back rfl)

/-- What stands between the quotes of a string is left alone. -/
theorem scan_quoted_append {body tail : List Char} (unended : Unended body)
    (ends : tail = [] ∨ ¬ Protects body) :
    scan .quoted (body ++ tail) = (scan .quoted tail).map (body ++ ·) := by
  -- an escape takes two characters off the body, so the induction is on its length
  induction count : body.length using Nat.strong_induction_on generalizing body with
  | h count ih =>
      cases body with
      | nil => exact Scans.nil .quoted tail
      | cons c rest =>
          rw [List.length_cons] at count
          by_cases escape : c = '\\'
          · subst escape
            cases rest with
            | nil =>
                rcases ends with rfl | whole
                · rfl
                · exact absurd rfl whole
            | cons d rest =>
                rw [List.length_cons] at count
                have still := ends.imp_right (mt (protects_escape d rest).mpr)
                have later := ih rest.length (by omega) unended.of_escape still rfl
                rw [List.cons_append, List.cons_append, scan, later]
                cases scan .quoted tail <;> rfl
          · obtain ⟨noQuote, inside⟩ := unended.of_cons escape
            have still := ends.imp_right (mt (protects_cons escape rest).mpr)
            have later := ih rest.length (by omega) inside still rfl
            rw [List.cons_append, ← List.singleton_append, scans_quoted noQuote escape, later]
            cases scan .quoted tail <;> rfl

/-- A segment as it is left: a comment is overwritten. -/
def Segment.blanked (segment : Segment) : List Char :=
  if segment.isComment then segment.text.flatMap cover else segment.text

theorem scan_line_end {body rest : List Char} (upTo : UpTo EndsLine body rest) :
    scan .line rest = scan .code rest := by
  rcases upTo.1 with rfl | feed
  · rfl
  · obtain ⟨later, rfl⟩ := List.head?_eq_some_iff.mp feed
    have code : scan .code ('\n' :: later) = (scan .code later).map ('\n' :: ·) :=
      scans_code (by decide) (by decide) later
    rw [code, scan]

theorem Segment.Leads.scan_eq {segment : Segment} {rest : List Char} (leads : segment.Leads rest)
    (finished : ∀ body, segment ≠ .block body false) :
    scan .code (segment.text ++ rest) = (scan .code rest).map (segment.blanked ++ ·) := by
  cases segment with
  | string body closed =>
      cases closed with
      | false =>
          obtain ⟨upTo, rfl⟩ := leads
          have inside := scan_quoted_append upTo.unended (.inl rfl)
          rw [List.append_nil] at inside
          rw [List.append_nil, text, scan_openQuote, inside]
          rfl
      | true =>
          obtain ⟨reached, -⟩ := id leads
          have unprotected : ¬ Protects body := (reached.resolve_left (List.cons_ne_nil _ _)).2
          rw [text, List.append_assoc, List.cons_append, scan_openQuote, List.singleton_append,
            scan_quoted_append (UpTo.unended leads) (.inr unprotected), scan_closeQuote]
          cases scan .code rest <;> simp [Except.map, blanked, isComment, text]
  | line body =>
      have inside := scans_line (UpTo.single leads) rest
      rw [text, List.cons_append, List.cons_append, scan, inside, scan_line_end leads]
      cases scan .code rest <;> rfl
  | block body closed =>
      cases closed with
      | false => exact absurd rfl (finished body)
      | true =>
          have covered : (block body true).blanked =
              [' ', ' '] ++ (body.flatMap cover ++ [' ', ' ']) := by
            change ('/' :: '*' :: body ++ ['*', '/']).flatMap cover = _
            rw [List.flatMap_append]
            rfl
          rw [covered]
          exact scans_comment (UpTo.unclosed leads) rest
  | other c =>
      obtain ⟨noQuote, noComment⟩ := leads
      rw [text, List.singleton_append, scan]
      · rfl
      · exact noQuote
      · rintro later rfl rfl
        exact noComment ⟨rfl, .inl rfl⟩
      · rintro later rfl rfl
        exact noComment ⟨rfl, .inr rfl⟩

theorem Splits.text_eq {source : List Char} {segments : List Segment}
    (splits : Splits source segments) : segments.flatMap Segment.text = source := by
  induction splits with
  | nil => rfl
  | cons leads more ih => rw [List.flatMap_cons, ih]

theorem Splits.scan_eq_ok {source : List Char} {segments : List Segment}
    (splits : Splits source segments) (finished : ∀ body, .block body false ∉ segments) :
    scan .code source = .ok (segments.flatMap Segment.blanked) := by
  induction splits with
  | nil => rfl
  | @cons segment rest segments leads more ih =>
      have here (body : List Char) : segment ≠ .block body false := by
        rintro rfl
        exact finished body List.mem_cons_self
      have later := ih fun body member => finished body (List.mem_cons_of_mem _ member)
      rw [leads.scan_eq here, later]
      rfl

theorem Segment.Leads.scan_unclosed {body rest : List Char}
    (leads : (Segment.block body false).Leads rest) :
    scan .code ('/' :: '*' :: body) = .error ('/' :: '*' :: body) := by
  have inside := scan_block_append leads.1.unclosed (List.head?_nil.trans_ne nofun)
    ('/' :: '*' :: body)
  rw [List.append_nil] at inside
  rw [scan, inside]
  rfl

/-- The scan stops at the block comment that is not closed, and gives it back. -/
theorem Splits.scan_eq_error {source : List Char} {segments : List Segment}
    (splits : Splits source segments) {body : List Char} (unclosed : .block body false ∈ segments) :
    ∃ before, segments = before ++ [.block body false] ∧
      scan .code source = .error ('/' :: '*' :: body) := by
  induction splits with
  | nil => cases unclosed
  | @cons segment rest segments leads more ih =>
      by_cases finished : ∀ other, segment ≠ .block other false
      · have later := (List.mem_cons.mp unclosed).resolve_left (finished body).symm
        obtain ⟨before, rfl, stopped⟩ := ih later
        refine ⟨segment :: before, rfl, ?_⟩
        rw [leads.scan_eq finished, stopped]
        rfl
      · -- nothing follows a comment that is not closed
        simp only [not_forall, not_not] at finished
        obtain ⟨other, rfl⟩ := finished
        obtain ⟨-, rfl⟩ := id leads
        obtain rfl := more.unique .nil rfl
        obtain ⟨rfl, -⟩ := Segment.block.inj (List.mem_singleton.mp unclosed)
        refine ⟨[], rfl, ?_⟩
        rw [List.append_nil]
        exact leads.scan_unclosed

/-! ## Bytes -/

/-- The bytes of the UTF-8 form of a text. -/
def bytes (text : List Char) : List UInt8 :=
  text.flatMap String.utf8EncodeChar

def feedByte : UInt8 := 0x0A

def spaceByte : UInt8 := 0x20

/-- What the bytes of a comment become. -/
def overwritten (byte : UInt8) : UInt8 :=
  if byte = feedByte then feedByte else spaceByte

theorem length_bytes (text : List Char) : (bytes text).length = size text := by
  induction text with
  | nil => rfl
  | cons c rest ih =>
      unfold bytes at ih ⊢
      rw [List.flatMap_cons, List.length_append, ih, String.length_utf8EncodeChar]
      rfl

/-- The bytes of a character beyond ASCII are beyond ASCII. -/
theorem le_of_mem_utf8EncodeChar {c : Char} (wide : 127 < c.val.toNat) {byte : UInt8}
    (member : byte ∈ String.utf8EncodeChar c) : 128 ≤ byte.toNat := by
  have large (code : Nat) (high : 128 ≤ code % 256) : 128 ≤ (UInt8.ofNat code).toNat := by
    rwa [UInt8.toNat_ofNat']
  unfold String.utf8EncodeChar at member
  rw [if_neg (Nat.not_le.mpr wide)] at member
  split at member
  · rcases member with _ | ⟨_, _ | ⟨_, _ | _⟩⟩ <;> exact large _ (by omega)
  · split at member
    · rcases member with _ | ⟨_, _ | ⟨_, _ | ⟨_, _ | _⟩⟩⟩ <;> exact large _ (by omega)
    · rcases member with _ | ⟨_, _ | ⟨_, _ | ⟨_, _ | ⟨_, _ | _⟩⟩⟩⟩ <;> exact large _ (by omega)

/-- Only a line feed has the byte of one. -/
theorem eq_feed_of_mem {c : Char} (member : feedByte ∈ String.utf8EncodeChar c) : c = '\n' := by
  by_cases wide : 127 < c.val.toNat
  · exact absurd (le_of_mem_utf8EncodeChar wide member) (by decide)
  · unfold String.utf8EncodeChar at member
    rw [if_pos (Nat.not_lt.mp wide), List.mem_singleton] at member
    have code := congrArg UInt8.toNat member
    rw [UInt8.toNat_ofNat', Nat.mod_eq_of_lt (by omega)] at code
    exact Char.ext (UInt32.toNat_inj.mp code.symm)

theorem bytes_cover (c : Char) :
    bytes (cover c) = (String.utf8EncodeChar c).map overwritten := by
  unfold cover
  split
  · next feed =>
      subst feed
      rfl
  · next noFeed =>
      have other : ∀ byte ∈ String.utf8EncodeChar c, overwritten byte = spaceByte := by
        intro byte member
        unfold overwritten
        rw [if_neg]
        rintro rfl
        exact noFeed (eq_feed_of_mem member)
      have single : String.utf8EncodeChar ' ' = [spaceByte] := rfl
      rw [List.map_congr_left other, List.map_const', String.length_utf8EncodeChar, bytes,
        List.flatMap_replicate, single, List.flatten_replicate_singleton]

theorem bytes_flatMap_cover (text : List Char) :
    bytes (text.flatMap cover) = (bytes text).map overwritten := by
  induction text with
  | nil => rfl
  | cons c rest ih =>
      have first := bytes_cover c
      unfold bytes at ih first ⊢
      rw [List.flatMap_cons, List.flatMap_append, first, ih, List.flatMap_cons, List.map_append]

/-- A byte of a segment, as it is left. -/
def Segment.byteLeft (segment : Segment) (byte : UInt8) : UInt8 :=
  if segment.isComment then overwritten byte else byte

theorem Segment.bytes_blanked (segment : Segment) :
    bytes segment.blanked = (bytes segment.text).map segment.byteLeft := by
  unfold blanked byteLeft
  cases segment.isComment with
  | false => simp
  | true => exact bytes_flatMap_cover segment.text

/-- Whether the byte with the index belongs to a comment. -/
def InComment (segments : List Segment) (index : Nat) : Prop :=
  ∃ before comment after, segments = before ++ comment :: after ∧ comment.isComment = true ∧
    size (before.flatMap Segment.text) ≤ index ∧
    index < size (before.flatMap Segment.text) + size comment.text

theorem inComment_cons_of_lt {first : Segment} {index : Nat} (inside : index < size first.text)
    (rest : List Segment) : InComment (first :: rest) index ↔ first.isComment = true := by
  constructor
  · rintro ⟨before, comment, after, split, isComment, start, -⟩
    cases before with
    | nil =>
        obtain ⟨rfl, -⟩ := List.cons.inj split
        exact isComment
    | cons other before =>
        obtain ⟨rfl, -⟩ := List.cons.inj split
        rw [List.flatMap_cons, size_append] at start
        omega
  · intro isComment
    exact ⟨[], first, rest, rfl, isComment, Nat.zero_le _, by simpa using inside⟩

theorem inComment_cons_add (first : Segment) (rest : List Segment) (index : Nat) :
    InComment (first :: rest) (size first.text + index) ↔ InComment rest index := by
  constructor
  · rintro ⟨before, comment, after, split, isComment, start, stop⟩
    cases before with
    | nil =>
        obtain ⟨rfl, -⟩ := List.cons.inj split
        simp only [List.flatMap_nil, Text.size_nil] at stop
        omega
    | cons other before =>
        obtain ⟨rfl, behind⟩ := List.cons.inj split
        rw [List.flatMap_cons, size_append] at start stop
        exact ⟨before, comment, after, behind, isComment, by omega, by omega⟩
  · rintro ⟨before, comment, after, rfl, isComment, start, stop⟩
    refine ⟨first :: before, comment, after, rfl, isComment, ?_, ?_⟩ <;>
      rw [List.flatMap_cons, size_append] <;> omega

/-- The byte that is left of one in the text. -/
theorem getElem?_bytes_blanked {segments : List Segment} {index : Nat} {byte : UInt8}
    (found : (bytes (segments.flatMap Segment.text))[index]? = some byte) :
    (¬ InComment segments index → (bytes (segments.flatMap Segment.blanked))[index]? = some byte) ∧
      (InComment segments index →
        (bytes (segments.flatMap Segment.blanked))[index]? = some (overwritten byte)) := by
  induction segments generalizing index with
  | nil => cases found
  | cons first rest ih =>
      have split (left right : List Char) : bytes (left ++ right) = bytes left ++ bytes right :=
        List.flatMap_append
      rw [List.flatMap_cons, split] at found
      rw [List.flatMap_cons, split, first.bytes_blanked]
      have long := length_bytes first.text
      by_cases inside : index < size first.text
      · rw [inComment_cons_of_lt inside, List.getElem?_append_left (by simpa [long] using inside)]
        rw [List.getElem?_append_left (by rwa [long])] at found
        rw [List.getElem?_map, found]
        unfold Segment.byteLeft
        constructor <;> intro comment <;> simp [comment]
      · obtain ⟨behind, rfl⟩ := Nat.exists_eq_add_of_le (Nat.not_lt.mp inside)
        rw [inComment_cons_add, ← long, List.getElem?_append_right (by simp)]
        rw [← long, List.getElem?_append_right (by simp)] at found
        simp only [List.length_map, Nat.add_sub_cancel_left] at found ⊢
        exact ih found

/-! ## Blanking -/

theorem existsUnique_splits (source : List Char) : ∃! segments, Splits source segments := by
  obtain ⟨segments, splits⟩ := exists_splits source
  exact ⟨segments, splits, fun others also => also.unique splits rfl⟩

theorem Splits.blank_eq_ok {source : String} {segments : List Segment}
    (splits : Splits source.toList segments) (finished : ∀ body, .block body false ∉ segments) :
    blank source = .ok (String.ofList (segments.flatMap Segment.blanked)) := by
  unfold blank
  rw [splits.scan_eq_ok finished]

theorem Splits.blank_eq_error {source : String} {segments : List Segment}
    (splits : Splits source.toList segments) {body : List Char}
    (unclosed : .block body false ∈ segments) :
    ∃ before, segments = before ++ [.block body false] ∧
      source.toList = before.flatMap Segment.text ++ '/' :: '*' :: body ∧
      blank source = .error (size (before.flatMap Segment.text)) := by
  obtain ⟨before, rfl, stopped⟩ := splits.scan_eq_error unclosed
  have whole : source.toList = before.flatMap Segment.text ++ '/' :: '*' :: body := by
    rw [← splits.text_eq, List.flatMap_append, List.flatMap_singleton]
    rfl
  refine ⟨before, rfl, whole, ?_⟩
  unfold blank
  rw [stopped]
  simp only [whole, size_append, Nat.add_sub_cancel]

/-- A text is cut into segments in one way. If all its block comments are closed, blanking
keeps its size and all its bytes, except for those of comments that are no line feeds, which
become spaces. If one is not, it is the last segment, and its opener is reported. -/
theorem blank_segments (source : String) :
    (∃! segments, Splits source.toList segments) ∧
      ∀ segments, Splits source.toList segments →
        ((∀ body, .block body false ∉ segments) →
          ∃ text, blank source = .ok text ∧ size text.toList = size source.toList ∧
            ∀ index byte, (bytes source.toList)[index]? = some byte →
              ((¬ InComment segments index ∨ byte = feedByte) →
                (bytes text.toList)[index]? = some byte) ∧
              (InComment segments index → byte ≠ feedByte →
                (bytes text.toList)[index]? = some spaceByte)) ∧
        ∀ body, .block body false ∈ segments →
          ∃ before offset, segments = before ++ [.block body false] ∧
            source.toList = before.flatMap Segment.text ++ '/' :: '*' :: body ∧
            offset = size (before.flatMap Segment.text) ∧ blank source = .error offset ∧
            (Schema.Rejection.unclosedComment offset).diagnostic.labels =
              [⟨offset, 2, "Comment starts here"⟩] := by
  refine ⟨existsUnique_splits source.toList, fun segments splits => ⟨fun finished => ?_, ?_⟩⟩
  · have blanked := splits.blank_eq_ok finished
    refine ⟨_, blanked, (covers_scan (scan_of_blank blanked)).size_eq, ?_⟩
    intro index byte found
    rw [← splits.text_eq] at found
    obtain ⟨kept, covered⟩ := getElem?_bytes_blanked found
    rw [String.toList_ofList]
    constructor
    · intro stays
      by_cases comment : InComment segments index
      · obtain rfl := stays.resolve_left (not_not_intro comment)
        exact covered comment
      · exact kept comment
    · intro comment noFeed
      rw [covered comment, overwritten, if_neg noFeed]
  · intro body unclosed
    obtain ⟨before, last, whole, failed⟩ := splits.blank_eq_error unclosed
    exact ⟨before, _, last, whole, rfl, failed, rfl⟩

/-- The opener in the string is none, and the comment has a character of two bytes. -/
def wideSource : String :=
  "\"\\\"/*\"//é\n"

def wideSegments : List Segment :=
  [.string ['\\', '"', '/', '*'] true, .line ['é'], .other '\n']

theorem splits_wideSource : Splits wideSource.toList wideSegments := by
  have whole : wideSource.toList =
      (Segment.string ['\\', '"', '/', '*'] true).text ++
        ((Segment.line ['é']).text ++ ((Segment.other '\n').text ++ [])) := by
    decide
  rw [whole]
  exact .cons (by decide) (.cons (by decide) (.cons (by decide) .nil))

theorem blank_segments_wideSource :
    ∃ text, blank wideSource = .ok text ∧ (bytes text.toList)[9]? = some spaceByte ∧
      (bytes text.toList)[10]? = some feedByte := by
  obtain ⟨closed, -⟩ := (blank_segments wideSource).2 wideSegments splits_wideSource
  obtain ⟨text, blanked, -, left⟩ := closed (by simp [wideSegments])
  have comment : InComment wideSegments 9 :=
    ⟨[.string ['\\', '"', '/', '*'] true], .line ['é'], [.other '\n'], rfl, rfl, by decide,
      by decide⟩
  refine ⟨text, blanked, ?_, ?_⟩
  · exact (left 9 0xA9 (by decide)).2 comment (by decide)
  · exact (left 10 feedByte (by decide)).1 (.inr rfl)

end Externs.Comment
