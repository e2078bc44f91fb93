import Externs.Json.Record
import Externs.Proofs.Json.Token
import Mathlib.Data.List.TakeWhile

/-!
# Reading tokens

What each reader makes of the tokens that it is meant for, whatever white space stands
between them and whatever stands behind them.
-/

set_option autoImplicit false

namespace Externs.Json

open Reader

/-! ## Steps of a reader -/

section

variable {α β : Type}

theorem Reader.bind_ok {reader : Reader α} {next : α → Reader β} {text rest : List Char}
    {value : α} (read : reader text = .ok value rest) :
    (reader >>= next) text = next value rest := by
  simp only [bind, EStateM.bind, read]

theorem Reader.advance_bind (next : Unit → Reader β) (c : Char) (rest : List Char) :
    (advance >>= next) (c :: rest) = next () rest :=
  rfl

theorem Reader.pure_apply (value : α) (text : List Char) :
    (pure value : Reader α) text = .ok value text :=
  rfl

end

section

variable {σ : Type} {step : σ → Reader (ForInStep σ)} {state next : σ} {text rest : List Char}

theorem Reader.iterateUpTo_done (done : step state text = .ok (.done next) rest) (bound : Nat) :
    iterateUpTo step (bound + 1) state text = .ok next rest := by
  simp only [iterateUpTo, done]

theorem Reader.iterateUpTo_yield (went : step state text = .ok (.yield next) rest) (bound : Nat) :
    iterateUpTo step (bound + 1) state text = iterateUpTo step bound next rest := by
  simp only [iterateUpTo, went]

theorem Reader.iterateUpTo_congr (same : step state text = step next rest) (bound : Nat) :
    iterateUpTo step (bound + 1) state text = iterateUpTo step (bound + 1) next rest := by
  simp only [iterateUpTo, same]

end

/-! ## Strings -/

theorem hexDigit?_of_isHex {value : Nat} {c : Char} (digit : IsHex value c) :
    hexDigit? c = some value := by
  obtain ⟨small, rfl | rfl⟩ := digit
  · revert value
    decide
  · revert value
    decide

theorem codeUnit_apply {unit : Nat} {digits : List Char} (code : IsUnit unit digits)
    (rest : List Char) : codeUnit (digits ++ rest) = .ok unit rest := by
  match digits, code with
  | [a, b, c, d], ⟨first, second, third, fourth⟩ =>
      have long : ¬ Text.size ([a, b, c, d] ++ rest) < 4 := by
        have size := Text.length_le_size ([a, b, c, d] ++ rest)
        simp only [List.cons_append, List.nil_append, List.length_cons] at size
        simp only [List.cons_append, List.nil_append]
        omega
      have value : hexValue? [a, b, c, d] = some unit := by
        simp only [hexValue?, List.foldlM_cons, List.foldlM_nil, hexDigit?_of_isHex first,
          hexDigit?_of_isHex second, hexDigit?_of_isHex third, hexDigit?_of_isHex fourth,
          Option.map_some, Option.bind_eq_bind, Option.bind_some]
        have bound := first.1
        congr 1
        omega
      rw [codeUnit]
      simp only [if_neg long]
      rw [show ([a, b, c, d] ++ rest).take 4 = [a, b, c, d] from rfl, value]
      rfl

theorem toNat_lt_of_char (c : Char) :
    c.toNat < 0xD800 ∨ (0xDFFF < c.toNat ∧ c.toNat < 0x110000) :=
  c.valid

theorem codePoint_unit {c : Char} {digits : List Char} (code : IsUnit c.toNat digits)
    (rest : List Char) : codePoint (digits ++ rest) = .ok c rest := by
  have valid := toNat_lt_of_char c
  have noTrailing : isTrailing c.toNat = false := by
    simp only [isTrailing, Bool.and_eq_false_iff, decide_eq_false_iff_not]
    omega
  have noLeading : isLeading c.toNat = false := by
    simp only [isLeading, Bool.and_eq_false_iff, decide_eq_false_iff_not]
    omega
  rw [codePoint, bind_ok (codeUnit_apply code rest), noTrailing, noLeading]
  exact congrArg (EStateM.Result.ok · rest) (Char.ofNat_toNat c)

theorem pairMark_apply (mark : Char) (rest : List Char) :
    pairMark mark (mark :: rest) = .ok () rest := by
  have found : peek (mark :: rest) = .ok (some mark) (mark :: rest) := rfl
  rw [pairMark, bind_ok found]
  simp only [if_pos]
  rfl

theorem codePoint_pair {c : Char} {first second : List Char} (wide : 0x10000 ≤ c.toNat)
    (leading : IsUnit (0xD800 + (c.toNat - 0x10000) / 0x400) first)
    (trailing : IsUnit (0xDC00 + (c.toNat - 0x10000) % 0x400) second) (rest : List Char) :
    codePoint (first ++ '\\' :: 'u' :: (second ++ rest)) = .ok c rest := by
  have valid := toNat_lt_of_char c
  have noTrailing : isTrailing (0xD800 + (c.toNat - 0x10000) / 0x400) = false := by
    simp only [isTrailing, Bool.and_eq_false_iff, decide_eq_false_iff_not]
    omega
  have isFirst : isLeading (0xD800 + (c.toNat - 0x10000) / 0x400) = true := by
    simp only [isLeading, Bool.and_eq_true, decide_eq_true_eq]
    omega
  have isSecond : isTrailing (0xDC00 + (c.toNat - 0x10000) % 0x400) = true := by
    simp only [isTrailing, Bool.and_eq_true, decide_eq_true_eq]
    omega
  have value : 0x10000 + (0xD800 + (c.toNat - 0x10000) / 0x400 - 0xD800) * 0x400 +
      (0xDC00 + (c.toNat - 0x10000) % 0x400 - 0xDC00) = c.toNat := by
    omega
  rw [codePoint, bind_ok (codeUnit_apply leading _), noTrailing, isFirst]
  simp only [if_false, if_true, Bool.false_eq_true]
  rw [bind_ok (pairMark_apply '\\' _), bind_ok (pairMark_apply 'u' _),
    bind_ok (codeUnit_apply trailing rest), isSecond, if_pos rfl, value, Char.ofNat_toNat]
  rfl

/-- What is done with the code of an escaped character in a string that is kept. -/
def keptCode : Reader (List Char) := do
  return [← codePoint]

theorem escapeWith_short {letter c : Char} (listed : (letter, c) ∈ shortEscapes)
    (code : Reader (List Char)) (rest : List Char) :
    escapeWith code (letter :: rest) = .ok [c] rest := by
  simp only [shortEscapes, List.mem_cons, Prod.mk.injEq, List.not_mem_nil, or_false] at listed
  rcases listed with h | h | h | h | h | h | h | h <;> obtain ⟨rfl, rfl⟩ := h <;> rfl

theorem escapeWith_code (code : Reader (List Char)) (rest : List Char) :
    escapeWith code ('u' :: rest) = code rest :=
  rfl

section

variable (code : Reader (List Char)) (control : Reader Unit) (read : List Char)

theorem stringPart_plain {c : Char} (plain : isPlain c = true) (rest : List Char) :
    stringPart code control read (c :: rest) = stringPart code control (read ++ [c]) rest := by
  simp only [stringPart, bind, EStateM.bind, takeWhile, List.takeWhile_cons, plain,
    List.dropWhile_cons, if_true, List.append_assoc, List.singleton_append]

theorem stringPart_quote (rest : List Char) :
    stringPart code control read ('"' :: rest) = .ok (.done read) rest := by
  have none : takeWhile isPlain ('"' :: rest) = .ok [] ('"' :: rest) := rfl
  have found : peek ('"' :: rest) = .ok (some '"') ('"' :: rest) := rfl
  rw [stringPart, bind_ok none, bind_ok found, List.append_nil]
  rfl

theorem stringPart_escape {rest more escaped : List Char}
    (success : escapeWith code rest = .ok escaped more) :
    stringPart code control read ('\\' :: rest) = .ok (.yield (read ++ escaped)) more := by
  have none : takeWhile isPlain ('\\' :: rest) = .ok [] ('\\' :: rest) := rfl
  have found : peek ('\\' :: rest) = .ok (some '\\') ('\\' :: rest) := rfl
  have dropped : advance ('\\' :: rest) = .ok () rest := rfl
  rw [stringPart, bind_ok none, bind_ok found, List.append_nil]
  simp only [if_true, if_false, Char.reduceEq]
  rw [bind_ok dropped, bind_ok success]
  rfl

end

theorem iterateUpTo_escape {control : Reader Unit} {read escape rest more value : List Char}
    {c : Char} {bound : Nat} (escaped : escapeWith keptCode (escape ++ rest) = .ok [c] rest)
    (later : iterateUpTo (stringPart keptCode control) bound (read ++ [c]) rest =
      .ok (read ++ [c] ++ value) more) :
    iterateUpTo (stringPart keptCode control) (bound + 1) read ('\\' :: (escape ++ rest)) =
      .ok (read ++ c :: value) more := by
  rw [List.append_assoc] at later
  exact (iterateUpTo_yield (stringPart_escape keptCode control read escaped) bound).trans later

/-- Each round of the loop takes at least an escape off the text, so that its bound is
never met. -/
theorem iterateUpTo_stringPart {body value : List Char} (denotes : Denotes body value)
    (control : Reader Unit) (read rest : List Char) (bound : Nat) (enough : body.length ≤ bound) :
    iterateUpTo (stringPart keptCode control) (bound + 1) read (body ++ '"' :: rest) =
      .ok (read ++ value) rest := by
  induction denotes generalizing read bound with
  | nil =>
      rw [List.append_nil]
      exact iterateUpTo_done (stringPart_quote keptCode control read rest) bound
  | @plain c text value noQuote noEscape printed _ ih =>
      have plain : isPlain c = true := by simp [isPlain, noQuote, noEscape, printed]
      have later := ih (read ++ [c]) bound (Nat.le_of_succ_le enough)
      rw [List.append_assoc] at later
      exact (iterateUpTo_congr (stringPart_plain keptCode control read plain _) bound).trans later
  | @short letter c text value listed _ ih =>
      simp only [List.length_cons] at enough
      obtain ⟨fewer, rfl⟩ : ∃ fewer, bound = fewer + 1 := ⟨bound - 1, by omega⟩
      have escaped : escapeWith keptCode ([letter] ++ (text ++ '"' :: rest)) =
          .ok [c] (text ++ '"' :: rest) :=
        escapeWith_short listed keptCode _
      have whole := iterateUpTo_escape escaped (ih (read ++ [c]) fewer (by omega))
      simpa using whole
  | @unit c digits text value code _ ih =>
      simp only [List.length_cons, List.cons_append, List.length_append] at enough
      obtain ⟨fewer, rfl⟩ : ∃ fewer, bound = fewer + 1 := ⟨bound - 1, by omega⟩
      have escaped : escapeWith keptCode ('u' :: digits ++ (text ++ '"' :: rest)) =
          .ok [c] (text ++ '"' :: rest) := by
        rw [List.cons_append, escapeWith_code, keptCode, bind_ok (codePoint_unit code _)]
        rfl
      have whole := iterateUpTo_escape escaped (ih (read ++ [c]) fewer (by omega))
      simpa using whole
  | @pair c first second text value wide leading trailing _ ih =>
      simp only [List.length_cons, List.cons_append, List.length_append] at enough
      obtain ⟨fewer, rfl⟩ : ∃ fewer, bound = fewer + 1 := ⟨bound - 1, by omega⟩
      have escaped :
          escapeWith keptCode
              ('u' :: (first ++ '\\' :: 'u' :: second) ++ (text ++ '"' :: rest)) =
            .ok [c] (text ++ '"' :: rest) := by
        have point := codePoint_pair wide leading trailing (text ++ '"' :: rest)
        rw [List.cons_append, escapeWith_code, keptCode, List.append_assoc, List.cons_append,
          List.cons_append, bind_ok point]
        rfl
      have whole := iterateUpTo_escape escaped (ih (read ++ [c]) fewer (by omega))
      simpa using whole

theorem stringTail_apply {body : List Char} {value : String}
    (denotes : Denotes body value.toList) (rest : List Char) :
    stringTail (body ++ '"' :: rest) = .ok value rest := by
  have read : iterate (stringPart keptCode advance) [] (body ++ '"' :: rest) =
      .ok value.toList rest := by
    have enough : body.length ≤ (body ++ '"' :: rest).length := by simp
    exact iterateUpTo_stringPart denotes advance [] rest _ enough
  rw [stringTail]
  refine (bind_ok read).trans ?_
  rw [String.ofList_toList]
  rfl

/-! ## Tokens -/

def Token.initial : Token → Char
  | .mark sign => sign.char
  | .null => 'n'
  | .boolean true => 't'
  | .boolean false => 'f'
  | .string _ => '"'

theorem Spells.initial {token : Token} {word : List Char} (spelled : Spells token word) :
    ∃ tail, word = token.initial :: tail := by
  cases spelled <;> exact ⟨_, rfl⟩

theorem isSpace_initial (token : Token) : isSpace token.initial = false := by
  cases token with
  | mark mark => cases mark <;> rfl
  | null => rfl
  | boolean value => cases value <;> rfl
  | string value => rfl

theorem token_blank {gap : List Char} (blank : Blank gap) {c : Char} (solid : isSpace c = false)
    (rest : List Char) : token (gap ++ c :: rest) = .ok (some c) (c :: rest) := by
  have dropped : (gap ++ c :: rest).dropWhile isSpace = c :: rest := by
    rw [List.dropWhile_append_of_pos blank, List.dropWhile_cons, solid]
    rfl
  simp only [token, dropped, List.head?_cons]

/-- The reader takes the tokens off a text, and gives the value. -/
def Reads {α : Type} (reader : Reader α) (tokens : List Token) (value : α) : Prop :=
  ∀ text rest, Laid Blank tokens text → reader (text ++ rest) = .ok value rest

/-- Blanks in front of the first token are skipped, and the token stays. -/
theorem token_laid {first : Token} {tokens : List Token} {text : List Char}
    (laid : Laid Blank (first :: tokens) text) (rest : List Char) :
    ∃ word more, Spells first word ∧ Laid Blank tokens more ∧
      token (text ++ rest) = .ok (some first.initial) (word ++ (more ++ rest)) := by
  obtain _ | @⟨_, _, gap, word, more, blank, spelled, others⟩ := laid
  refine ⟨word, more, spelled, others, ?_⟩
  obtain ⟨tail, rfl⟩ := spelled.initial
  rw [List.append_assoc, List.append_assoc]
  exact token_blank blank (isSpace_initial first) (tail ++ (more ++ rest))

theorem reads_of_token {α : Type} {reader : Option Char → Reader α} {first : Token}
    {tokens : List Token} {value : α}
    (after : ∀ word more rest, Spells first word → Laid Blank tokens more →
      reader (some first.initial) (word ++ (more ++ rest)) = .ok value rest) :
    Reads (token >>= reader) (first :: tokens) value := by
  intro text rest laid
  obtain ⟨word, more, spelled, others, found⟩ := token_laid laid rest
  rw [bind_ok found]
  exact after word more rest spelled others

theorem Reads.bind {α β : Type} {reader : Reader α} {next : α → Reader β}
    {first second : List Token} {value : α} {result : β} (one : Reads reader first value)
    (two : Reads (next value) second result) :
    Reads (reader >>= next) (first ++ second) result := by
  intro text rest laid
  obtain ⟨left, right, rfl, inLeft, inRight⟩ := laid.of_append
  rw [List.append_assoc, bind_ok (one left (right ++ rest) inLeft), two right rest inRight]

theorem Reads.bind_pure {α β : Type} {reader : Reader α} {next : α → Reader β}
    {tokens : List Token} {value : α} {result : β} (reads : Reads reader tokens value)
    (last : next value = pure result) : Reads (reader >>= next) tokens result := by
  intro text rest laid
  rw [bind_ok (reads text rest laid), last, pure_apply]

theorem Reads.map {α β : Type} {reader : Reader α} {tokens : List Token} {value : α}
    (reads : Reads reader tokens value) (f : α → β) :
    Reads (reader >>= fun value => pure (f value)) tokens (f value) :=
  reads.bind_pure rfl

theorem Reads.word {α : Type} {reader : Reader α} {first : Token} {tokens : List Token}
    {value : α} (reads : Reads reader (first :: tokens) value) {word more : List Char}
    (spelled : Spells first word) (laid : Laid Blank tokens more) (rest : List Char) :
    reader (word ++ (more ++ rest)) = .ok value rest := by
  have whole : Laid Blank (first :: tokens) ([] ++ (word ++ more)) :=
    .cons (by decide) spelled laid
  have read := reads _ rest whole
  rwa [List.nil_append, List.append_assoc] at read

theorem reads_colon : Reads colon [.mark .colon] () := by
  apply reads_of_token
  intro word more rest spelled others
  cases spelled
  cases others
  rfl

theorem reads_string (value : String) : Reads Reader.string [.string value] value := by
  apply reads_of_token
  intro word more rest spelled others
  cases others
  obtain _ | _ | _ | _ | denotes := spelled
  have read := stringTail_apply denotes rest
  simpa [Token.initial, advance_bind] using read

/-- Tokens that a value can start with, apart from `null`. -/
def Token.opens : Token → Bool
  | .mark .openList | .mark .openObject | .boolean _ | .string _ => true
  | _ => false

def Opens (tokens : List Token) : Prop :=
  ∃ first more, tokens = first :: more ∧ first.opens = true

theorem reads_optional {α : Type} {reader : Reader α} {tokens : List Token} {value : α}
    (reads : Reads reader tokens value) (opens : Opens tokens) :
    Reads (optional reader) tokens (some value) := by
  obtain ⟨first, more, rfl, opens⟩ := opens
  apply reads_of_token
  intro word others rest spelled laid
  have read := reads.word spelled laid rest
  cases first with
  | mark sign => cases sign <;> exact bind_ok read
  | null => exact nomatch opens
  | boolean flag => cases flag <;> exact bind_ok read
  | string content => exact bind_ok read

theorem reads_optional_null {α : Type} (reader : Reader α) :
    Reads (optional reader) [.null] none := by
  apply reads_of_token
  intro word more rest spelled others
  cases spelled
  cases others
  rfl

/-! ## Loops -/

/-- The loop goes from one state to another over the tokens. -/
inductive Steps {σ : Type} (step : σ → Reader (ForInStep σ)) : σ → List Token → σ → Prop
  | nil (state : σ) : Steps step state [] state
  | cons {state next last : σ} {token : Token} {tokens more : List Token}
      (reads : Reads (step state) (token :: tokens) (.yield next))
      (rest : Steps step next more last) : Steps step state (token :: tokens ++ more) last

theorem Laid.length_le {between : List Char → Prop} {tokens : List Token} {text : List Char}
    (laid : Laid between tokens text) : tokens.length ≤ text.length := by
  induction laid with
  | nil => exact Nat.le_refl _
  | cons _ spelled _ ih =>
      obtain ⟨tail, rfl⟩ := spelled.initial
      simp only [List.length_cons, List.length_append]
      omega

theorem iterateUpTo_steps {σ : Type} {step : σ → Reader (ForInStep σ)} {state last : σ}
    {tokens : List Token} (steps : Steps step state tokens last) {result : σ}
    {after rest : List Char} (done : step last after = .ok (.done result) rest)
    {text : List Char} (laid : Laid Blank tokens text) {bound : Nat}
    (enough : tokens.length ≤ bound) :
    iterateUpTo step (bound + 1) state (text ++ after) = .ok result rest := by
  induction steps generalizing text bound with
  | nil state =>
      cases laid
      exact iterateUpTo_done done bound
  | @cons state next last token tokens more reads _ ih =>
      obtain ⟨left, right, rfl, inLeft, inRight⟩ := laid.of_append
      have went := reads left (right ++ after) inLeft
      simp only [List.length_append, List.length_cons] at enough
      obtain ⟨fewer, rfl⟩ : ∃ fewer, bound = fewer + 1 := ⟨bound - 1, by omega⟩
      rw [List.append_assoc, iterateUpTo_yield went]
      exact ih done inRight (by omega)

theorem iterate_steps {σ : Type} {step : σ → Reader (ForInStep σ)} {state last : σ}
    {tokens : List Token} (steps : Steps step state tokens last) {result : σ}
    {after rest : List Char} (done : step last after = .ok (.done result) rest)
    {text : List Char} (laid : Laid Blank tokens text) :
    iterate step state (text ++ after) = .ok result rest := by
  have enough : tokens.length ≤ (text ++ after).length := by
    have bound := laid.length_le
    rw [List.length_append]
    omega
  exact iterateUpTo_steps steps done laid enough

/-- A round of a loop over parts with commas between them: the first part stands alone,
and the others have a comma in front. -/
structure Advances {σ : Type} (step : σ → Reader (ForInStep σ)) (fresh : σ → Bool) (state : σ)
    (part : List Token) (next : σ) : Prop where
  filled : part ≠ []
  begun : fresh next = false
  reads : Reads (step state) (if fresh state then part else .mark .comma :: part) (.yield next)

inductive Rounds {σ : Type} (step : σ → Reader (ForInStep σ)) (fresh : σ → Bool) :
    σ → List (List Token) → σ → Prop
  | nil (state : σ) : Rounds step fresh state [] state
  | cons {state next last : σ} {part : List Token} {parts : List (List Token)}
      (advances : Advances step fresh state part next)
      (rest : Rounds step fresh next parts last) : Rounds step fresh state (part :: parts) last

section

variable {σ : Type} {step : σ → Reader (ForInStep σ)} {fresh : σ → Bool} {state last : σ}
  {parts : List (List Token)}

theorem Rounds.steps_begun (rounds : Rounds step fresh state parts last)
    (begun : fresh state = false) :
    Steps step state (parts.flatMap fun part => .mark .comma :: part) last := by
  induction rounds with
  | nil state => exact .nil state
  | cons advances _ ih =>
      have reads := advances.reads
      rw [begun] at reads
      exact .cons reads (ih advances.begun)

theorem Rounds.steps (rounds : Rounds step fresh state parts last) (start : fresh state = true) :
    Steps step state (separated parts) last := by
  cases rounds with
  | nil => exact .nil state
  | @cons _ next _ part parts advances rest =>
      have reads := advances.reads
      obtain ⟨first, more, rfl⟩ := List.exists_cons_of_ne_nil advances.filled
      rw [start] at reads
      exact .cons reads (rest.steps_begun advances.begun)

end

/-! ## Lists -/

section

variable {α : Type}

/-- What stands in brackets, with blanks in front of the closing one. -/
theorem enter_apply {close : Reader Unit} {contents : Reader α} {closer : Mark}
    {tokens : List Token} {value : α}
    (closes : ∀ rest, close (closer.char :: rest) = .ok () rest)
    (inside : ∀ text gap rest, Laid Blank tokens text → Blank gap →
      contents (text ++ (gap ++ closer.char :: rest)) = .ok value (closer.char :: rest))
    {more : List Char} (laid : Laid Blank (tokens ++ [.mark closer]) more) (c : Char)
    (rest : List Char) : enter close (some contents) (c :: (more ++ rest)) = .ok value rest := by
  obtain ⟨text, ending, rfl, inText, inEnd⟩ := laid.of_append
  obtain _ | @⟨_, _, gap, _, _, blank, spelled, nothing⟩ := inEnd
  cases spelled
  cases nothing
  have read := inside text gap rest inText blank
  rw [enter, advance_bind, enclosed]
  simp only [List.append_assoc, List.append_nil, List.singleton_append, read, closes]

def itemStep (item : Reader α) (read : List α) : Reader (ForInStep (List α)) := do
  if ← nextItem read.isEmpty then return .yield ((← item) :: read)
  else return .done read

theorem itemStep_close (item : Reader α) (read : List α) {gap : List Char} (blank : Blank gap)
    (rest : List Char) :
    itemStep item read (gap ++ ']' :: rest) = .ok (.done read) (']' :: rest) := by
  have closed : nextItem read.isEmpty (gap ++ ']' :: rest) = .ok false (']' :: rest) := by
    rw [nextItem, bind_ok (token_blank blank (by decide) rest)]
    rfl
  rw [itemStep, bind_ok closed]
  rfl

/-- Tokens that an item of a list can start with. -/
def Token.begins : Token → Bool
  | .null => true
  | token => token.opens

theorem initial_ne_of_begins {token : Token} (begins : token.begins = true) :
    token.initial ≠ ']' := by
  cases token with
  | mark sign => cases sign <;> first | decide | exact absurd begins (by decide)
  | null => decide
  | boolean value => cases value <;> decide
  | string value => exact (by decide : '"' ≠ ']')

theorem nextItem_first {first : Token} (begins : first.begins = true) {tokens : List Token}
    {text : List Char} (laid : Laid Blank (first :: tokens) text) (rest : List Char) :
    ∃ word more, Spells first word ∧ Laid Blank tokens more ∧
      nextItem true (text ++ rest) = .ok true (word ++ (more ++ rest)) := by
  obtain ⟨word, more, spelled, others, found⟩ := token_laid laid rest
  refine ⟨word, more, spelled, others, ?_⟩
  rw [nextItem, bind_ok found]
  simp only [if_neg (initial_ne_of_begins begins), if_true]
  rfl

theorem nextItem_comma {first : Token} (begins : first.begins = true) {tokens : List Token}
    {text : List Char} (laid : Laid Blank (.mark .comma :: first :: tokens) text)
    (rest : List Char) :
    ∃ word more, Spells first word ∧ Laid Blank tokens more ∧
      nextItem false (text ++ rest) = .ok true (word ++ (more ++ rest)) := by
  obtain ⟨comma, after, spelledComma, afterComma, foundComma⟩ := token_laid laid rest
  cases spelledComma
  obtain ⟨word, more, spelled, others, found⟩ := token_laid afterComma rest
  refine ⟨word, more, spelled, others, ?_⟩
  have comma : token (text ++ rest) = .ok (some ',') (',' :: (after ++ rest)) := foundComma
  rw [nextItem, bind_ok comma]
  simp only [Char.reduceEq, if_false, if_true, Bool.false_eq_true]
  rw [advance_bind, bind_ok found]
  simp only [if_neg (initial_ne_of_begins begins)]
  rfl

def ReadsPart (item : Reader α) (part : List Token) (value : α) : Prop :=
  (∃ first more, part = first :: more ∧ first.begins = true) ∧ Reads item part value

/-- What is read is not `null`. -/
def ReadsItem (item : Reader α) (part : List Token) (value : α) : Prop :=
  Opens part ∧ Reads item part value

theorem ReadsItem.readsPart {item : Reader α} {part : List Token} {value : α}
    (reads : ReadsItem item part value) : ReadsPart item part value := by
  obtain ⟨⟨first, more, rfl, opens⟩, reads⟩ := reads
  refine ⟨⟨first, more, rfl, ?_⟩, reads⟩
  cases first with
  | null => rfl
  | mark _ | boolean _ | string _ => exact opens

theorem advances_itemStep {item : Reader α} {part : List Token} {value : α}
    (reads : ReadsPart item part value) (read : List α) :
    Advances (itemStep item) List.isEmpty read part (value :: read) := by
  obtain ⟨⟨first, tokens, rfl, begins⟩, reads⟩ := reads
  refine ⟨List.cons_ne_nil _ _, rfl, ?_⟩
  intro text rest laid
  cases read with
  | nil =>
      obtain ⟨word, more, spelled, others, found⟩ := nextItem_first begins laid rest
      exact (bind_ok found).trans (bind_ok (reads.word spelled others rest))
  | cons earlier read =>
      obtain ⟨word, more, spelled, others, found⟩ := nextItem_comma begins laid rest
      exact (bind_ok found).trans (bind_ok (reads.word spelled others rest))

theorem rounds_itemStep {item : Reader α} {parts : List (List Token)} {values : List α}
    (each : List.Forall₂ (ReadsPart item) parts values) (read : List α) :
    Rounds (itemStep item) List.isEmpty read parts (values.reverse ++ read) := by
  induction each generalizing read with
  | nil => exact .nil read
  | @cons part value parts values first _ ih =>
      rw [List.reverse_cons, List.append_assoc]
      exact .cons (advances_itemStep first read) (ih (value :: read))

theorem items_apply {item : Reader α} {parts : List (List Token)} {values : List α}
    (each : List.Forall₂ (ReadsPart item) parts values) (text gap rest : List Char)
    (laid : Laid Blank (separated parts) text) (blank : Blank gap) :
    items item (text ++ (gap ++ ']' :: rest)) = .ok values (']' :: rest) := by
  have steps := (rounds_itemStep each []).steps rfl
  rw [List.append_nil] at steps
  have looped := iterate_steps steps (itemStep_close item _ blank rest) laid
  rw [items]
  refine (bind_ok looped).trans ?_
  rw [List.reverse_reverse]
  rfl

theorem reads_list {item : Reader α} {parts : List (List Token)} {values : List α}
    (each : List.Forall₂ (ReadsItem item) parts values) :
    Reads (Reader.list (some item)) (listTokens parts) values := by
  have inside := each.imp fun _ _ reads => reads.readsPart
  apply reads_of_token
  intro word more rest spelled laid
  cases spelled
  exact enter_apply (fun _ => rfl) (items_apply inside) laid '[' rest

/-! ## Objects -/

theorem name_apply {value : String} {word : List Char} (spelled : Spells (.string value) word)
    (rest : List Char) : name (word ++ rest) = .ok value rest := by
  obtain _ | _ | _ | _ | @⟨_, body, denotes⟩ := spelled
  have split : '"' :: body ++ ['"'] ++ rest = '"' :: (body ++ '"' :: rest) := by simp
  rw [split]
  exact stringTail_apply denotes rest

theorem nextName_close (first : Bool) {gap : List Char} (blank : Blank gap) (rest : List Char) :
    nextName first (gap ++ '\x7d' :: rest) = .ok none ('\x7d' :: rest) := by
  rw [nextName, bind_ok (token_blank blank (by decide) rest)]
  rfl

theorem reads_nextName (first : Bool) (label : String) :
    Reads (nextName first) (if first then [.string label] else [.mark .comma, .string label])
      (some label) := by
  cases first with
  | true =>
      apply reads_of_token
      intro word more rest spelled others
      cases others
      exact bind_ok (name_apply spelled rest)
  | false =>
      intro text rest laid
      obtain ⟨sign, after, spelledComma, afterComma, foundComma⟩ := token_laid laid rest
      cases spelledComma
      obtain ⟨word, more, spelled, others, found⟩ := token_laid afterComma rest
      cases others
      have comma : token (text ++ rest) = .ok (some ',') (',' :: (after ++ rest)) := foundComma
      rw [nextName, bind_ok comma]
      simp only [Char.reduceEq, if_false, if_true, Bool.false_eq_true]
      rw [advance_bind, bind_ok found]
      exact bind_ok (name_apply spelled rest)

def memberStep (value : Reader α) (read : List (String × α)) :
    Reader (ForInStep (List (String × α))) := do
  match ← nextName read.isEmpty with
  | none => return .done read
  | some name =>
      colon
      return .yield ((name, ← value) :: read)

/-- A name and its colon, and then what is made of the value. -/
theorem reads_named {first : Bool} {label : String} {part : List Token} {result : α}
    {next : Option String → Reader α} {after : Reader α}
    (named : next (some label) = (colon >>= fun _ => after)) (reads : Reads after part result) :
    Reads (nextName first >>= next)
      (if first then memberTokens label part else .mark .comma :: memberTokens label part)
      result := by
  have rest : Reads (next (some label)) ([.mark .colon] ++ part) result := by
    rw [named]
    exact reads_colon.bind reads
  cases first with
  | true => exact (reads_nextName true label).bind rest
  | false => exact (reads_nextName false label).bind rest

theorem advances_memberStep {value : Reader α} {part : List Token} {result : α}
    (reads : Reads value part result) (label : String) (read : List (String × α)) :
    Advances (memberStep value) List.isEmpty read (memberTokens label part)
      ((label, result) :: read) where
  filled := List.cons_ne_nil _ _
  begun := rfl
  reads := reads_named rfl (reads.map fun result => ForInStep.yield ((label, result) :: read))

theorem rounds_memberStep {value : Reader α} {members : List (String × List Token)}
    {results : List (String × α)}
    (each : List.Forall₂ (fun member result => member.1 = result.1 ∧ Reads value member.2 result.2)
      members results) (read : List (String × α)) :
    Rounds (memberStep value) List.isEmpty read
      (members.map fun member => memberTokens member.1 member.2) (results.reverse ++ read) := by
  induction each generalizing read with
  | nil => exact .nil read
  | @cons member result members results first _ ih =>
      obtain ⟨label, part⟩ := member
      obtain ⟨name, value⟩ := result
      obtain ⟨rfl, reads⟩ := first
      rw [List.reverse_cons, List.append_assoc]
      exact .cons (advances_memberStep reads label read) (ih ((label, value) :: read))

theorem members_apply {value : Reader α} {members : List (String × List Token)}
    {results : List (String × α)}
    (each : List.Forall₂ (fun member result => member.1 = result.1 ∧ Reads value member.2 result.2)
      members results) (text gap rest : List Char)
    (laid : Laid Blank (separated (members.map fun member => memberTokens member.1 member.2)) text)
    (blank : Blank gap) :
    Reader.members value (text ++ (gap ++ '\x7d' :: rest)) = .ok results ('\x7d' :: rest) := by
  have steps := (rounds_memberStep each []).steps rfl
  rw [List.append_nil] at steps
  have done : memberStep value results.reverse (gap ++ '\x7d' :: rest) =
      .ok (.done results.reverse) ('\x7d' :: rest) := by
    rw [memberStep, bind_ok (nextName_close _ blank rest)]
    rfl
  have looped := iterate_steps steps done laid
  rw [Reader.members]
  refine (bind_ok looped).trans ?_
  rw [List.reverse_reverse]
  rfl

theorem reads_object {value : Reader α} {members : List (String × List Token)}
    {results : List (String × α)}
    (each : List.Forall₂ (fun member result => member.1 = result.1 ∧ Reads value member.2 result.2)
      members results) (expected : String) :
    Reads (Reader.object expected (some value)) (objectTokens members) results := by
  apply reads_of_token
  intro word more rest spelled laid
  cases spelled
  exact enter_apply (fun _ => rfl) (members_apply each) laid '\x7b' rest

end

/-! ## Records -/

section

variable {κ σ : Type} {fields : Fields κ σ} {read : κ → Reader (σ → σ)}

theorem advances_member {field : κ} {label : String} (found : fields.find? label = some field)
    {names : List String} (once : label ∉ names) {part : List Token} {update : σ → σ}
    (reads : Reads (read field) part update) (record : σ) :
    Advances (fields.member read) (fun state => state.2.isEmpty) (record, names)
      (memberTokens label part) (update record, label :: names) where
  filled := List.cons_ne_nil _ _
  begun := rfl
  reads := by
    apply reads_named
    · have absent : names.contains label = false := by simpa using once
      simp only [found, absent, Bool.false_eq_true, if_false]
      rfl
    · exact reads.map fun update => ForInStep.yield (update record, label :: names)

/-- The fields of a record in any order: each of them changes what it stands for. -/
theorem rounds_member (find : ∀ field, fields.find? (fields.key field) = some field)
    {update : κ → σ → σ} {entries : List (κ × List Token)}
    (distinct : (entries.map Prod.fst).Nodup)
    (reads : ∀ entry ∈ entries, Reads (read entry.1) entry.2 (update entry.1))
    (record : σ) (names : List String)
    (apart : ∀ entry ∈ entries, fields.key entry.1 ∉ names) :
    ∃ last, Rounds (fields.member read) (fun state => state.2.isEmpty) (record, names)
      (entries.map fun entry => memberTokens (fields.key entry.1) entry.2)
      (entries.foldl (fun record entry => update entry.1 record) record, last) := by
  induction entries generalizing record names with
  | nil => exact ⟨names, .nil _⟩
  | cons entry entries ih =>
      obtain ⟨field, part⟩ := entry
      rw [List.map_cons, List.nodup_cons] at distinct
      obtain ⟨readsHere, readsLater⟩ := List.forall_mem_cons.mp reads
      obtain ⟨apartHere, apartLater⟩ := List.forall_mem_cons.mp apart
      have advances := advances_member (find field) apartHere readsHere record
      have later : ∀ entry ∈ entries, fields.key entry.1 ∉ fields.key field :: names := by
        intro entry member
        rw [List.mem_cons, not_or]
        refine ⟨fun same => ?_, apartLater entry member⟩
        -- two fields of one name would be found as the same field
        have both := find entry.1
        rw [same, find field] at both
        exact distinct.1 (List.mem_map.mpr ⟨entry, member, (Option.some.inj both).symm⟩)
      obtain ⟨last, rounds⟩ := ih distinct.2 readsLater (update field record) _ later
      exact ⟨last, .cons advances rounds⟩

theorem reads_record (find : ∀ field, fields.find? (fields.key field) = some field)
    {update : κ → σ → σ} {entries : List (κ × List Token)}
    (distinct : (entries.map Prod.fst).Nodup)
    (reads : ∀ entry ∈ entries, Reads (read entry.1) entry.2 (update entry.1)) :
    Reads (fields.record (some read))
      (objectTokens (entries.map fun entry => (fields.key entry.1, entry.2)))
      (entries.foldl (fun record entry => update entry.1 record) fields.initial) := by
  obtain ⟨last, rounds⟩ := rounds_member find distinct reads fields.initial [] (by simp)
  have steps := rounds.steps rfl
  apply reads_of_token
  intro word more rest spelled laid
  cases spelled
  refine enter_apply (fun _ => rfl) ?_ laid '\x7b' rest
  intro text gap rest laid blank
  rw [List.map_map] at laid
  have done (state : σ × List String) :
      fields.member read state (gap ++ '\x7d' :: rest) = .ok (.done state) ('\x7d' :: rest) := by
    rw [Fields.member, bind_ok (nextName_close _ blank rest)]
    rfl
  have looped := iterate_steps steps (done _) laid
  exact bind_ok looped

end

/-! ## Values -/

theorem opens_listTokens (parts : List (List Token)) : Opens (listTokens parts) :=
  ⟨_, _, rfl, rfl⟩

theorem opens_objectTokens (members : List (String × List Token)) : Opens (objectTokens members) :=
  ⟨_, _, rfl, rfl⟩

theorem reads_value_boolean (depth : Nat) (flag : Bool) :
    Reads (value depth) [.boolean flag] (.boolean flag) := by
  rw [value.eq_def]
  apply reads_of_token
  intro word more rest spelled others
  cases others
  cases spelled <;> rfl

theorem reads_value_string (depth : Nat) (content : String) :
    Reads (value depth) [.string content] (.string content) := by
  rw [value.eq_def]
  apply reads_of_token
  intro word more rest spelled others
  cases others
  obtain _ | _ | _ | _ | @⟨_, body, denotes⟩ := spelled
  have split : '"' :: body ++ ['"'] ++ ([] ++ rest) = '"' :: (body ++ '"' :: rest) := by simp
  have kept : kept.string (body ++ '"' :: rest) = .ok (.string content) rest :=
    bind_ok (stringTail_apply denotes rest)
  rw [split]
  exact bind_ok kept

theorem reads_value_null (depth : Nat) : Reads (value depth) [.null] .null := by
  rw [value.eq_def]
  apply reads_of_token
  intro word more rest spelled others
  cases others
  cases spelled
  rfl

theorem reads_value_list {depth : Nat} {parts : List (List Token)} {items : List Json}
    (each : List.Forall₂ (ReadsPart (value depth)) parts items) :
    Reads (value (depth + 1)) (listTokens parts) (.list items) := by
  rw [value.eq_def]
  apply reads_of_token
  intro word more rest spelled laid
  cases spelled
  have entered : enter closeList (some (Reader.items (value depth)))
      ('[' :: (more ++ rest)) = .ok items rest :=
    enter_apply (fun _ => rfl) (items_apply each) laid '[' rest
  exact bind_ok entered

theorem reads_value_object {depth : Nat} {parts : List (String × List Token)}
    {members : List (String × Json)}
    (each : List.Forall₂
      (fun part member => part.1 = member.1 ∧ Reads (value depth) part.2 member.2) parts members) :
    Reads (value (depth + 1)) (objectTokens parts) (.object members) := by
  rw [value.eq_def]
  apply reads_of_token
  intro word more rest spelled laid
  cases spelled
  have entered : enter closeObject (some (Reader.members (value depth)))
      ('\x7b' :: (more ++ rest)) = .ok members rest :=
    enter_apply (fun _ => rfl) (members_apply each) laid '\x7b' rest
  exact bind_ok entered

theorem readsItem_value {depth : Nat} {json : Json} {tokens : List Token}
    (written : json.Written depth tokens) : ReadsItem (value depth) tokens json := by
  induction depth generalizing json tokens with
  | zero =>
      match json, written with
      | .scalar (.boolean flag), rfl => exact ⟨⟨_, _, rfl, rfl⟩, reads_value_boolean 0 flag⟩
      | .scalar (.string content), rfl => exact ⟨⟨_, _, rfl, rfl⟩, reads_value_string 0 content⟩
  | succ depth ih =>
      match json, written with
      | .scalar (.boolean flag), rfl => exact ⟨⟨_, _, rfl, rfl⟩, reads_value_boolean _ flag⟩
      | .scalar (.string content), rfl => exact ⟨⟨_, _, rfl, rfl⟩, reads_value_string _ content⟩
      | .list items, ⟨parts, each, rfl⟩ =>
          refine ⟨opens_listTokens parts, reads_value_list ?_⟩
          exact each.flip.imp fun _ _ written => (ih written).readsPart
      | .object members, ⟨parts, each, rfl⟩ =>
          refine ⟨opens_objectTokens parts, reads_value_object ?_⟩
          exact each.flip.imp fun _ _ written => ⟨written.1.symm, (ih written.2).2⟩

/-! ## Whole texts -/

theorem token_end {gap : List Char} (blank : Blank gap) : token gap = .ok none [] := by
  have dropped : gap.dropWhile isSpace = [] := List.dropWhile_eq_nil_iff.mpr blank
  simp only [token, dropped, List.head?_nil]

theorem whole_eq_ok {α : Type} {reader : Reader α} {tokens : List Token} {value : α}
    (reads : Reads reader tokens value) {text last : List Char} (laid : Laid Blank tokens text)
    (blank : Blank last) : whole reader (text ++ last) = .ok value := by
  rw [whole]
  simp only [bind_ok (reads text last laid), bind_ok (token_end blank), pure_apply]

end Externs.Json
