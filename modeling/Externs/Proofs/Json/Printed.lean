import Externs.Json.Pretty
import Externs.Proofs.Json.Reading

/-!
# Reading printed values

The text of a value lays out its tokens. A value without numbers is read back from them,
whatever its strings are and however deep it is.
-/

set_option autoImplicit false

namespace Externs.Json

open Reader

/-! ## Strings -/

theorem isUnit_control {unit : Nat} (control : unit < 0x20) :
    IsUnit unit ['0', '0', hexDigit (unit / 16), hexDigit (unit % 16)] := by
  revert unit
  decide

theorem Denotes.escapedChar {text value : List Char} (rest : Denotes text value) (c : Char) :
    Denotes (escapedChar c ++ text) (c :: value) := by
  unfold Json.escapedChar
  split_ifs with quote backslash backspace tab lineFeed formFeed carriageReturn control
  · subst quote
    exact .short (by decide) rest
  · subst backslash
    exact .short (by decide) rest
  · subst backspace
    exact .short (by decide) rest
  · subst tab
    exact .short (by decide) rest
  · subst lineFeed
    exact .short (by decide) rest
  · subst formFeed
    exact .short (by decide) rest
  · subst carriageReturn
    exact .short (by decide) rest
  · exact .unit (isUnit_control control) rest
  · exact .plain quote backslash (Nat.le_of_not_lt control) rest

theorem denotes_flatMap_escapedChar (text : List Char) :
    Denotes (text.flatMap escapedChar) text := by
  induction text with
  | nil => exact .nil
  | cons c rest ih => exact ih.escapedChar c

theorem spells_stringText (text : String) : Spells (.string text) (stringText text) :=
  .string (denotes_flatMap_escapedChar text.toList)

/-! ## Gaps -/

theorem blank_newline (indent : Nat) : Blank (newline indent) := by
  intro c member
  rcases List.mem_cons.mp member with rfl | inside
  · rfl
  · rw [(List.mem_replicate.mp inside).2]
    rfl

theorem Laid.append {between : List Char → Prop} {first second : List Token}
    {left right : List Char} (one : Laid between first left) (two : Laid between second right) :
    Laid between (first ++ second) (left ++ right) := by
  induction one with
  | nil => exact two
  | cons gapped spelled _ ih =>
      simp only [List.append_assoc, List.cons_append]
      exact .cons gapped spelled ih

theorem Laid.word {token : Token} {word text : List Char} {tokens : List Token}
    (spelled : Spells token word) (rest : Laid Blank tokens text) :
    Laid Blank (token :: tokens) (word ++ text) := by
  have nothing : Blank [] := by decide
  exact .cons nothing spelled rest

/-- Blanks may stand in front of the first token. -/
theorem Laid.indented {gap text : List Char} {tokens : List Token} (laid : Laid Blank tokens text)
    (filled : tokens ≠ []) (blank : Blank gap) : Laid Blank tokens (gap ++ text) := by
  cases laid with
  | nil => exact absurd rfl filled
  | cons gapped spelled rest =>
      rw [← List.append_assoc]
      exact .cons (blank.append gapped) spelled rest

theorem Laid.member {text : List Char} {tokens : List Token} (laid : Laid Blank tokens text)
    (filled : tokens ≠ []) (name : String) :
    Laid Blank (memberTokens name tokens) (stringText name ++ ':' :: ' ' :: text) := by
  have space : Blank [' '] := by decide
  exact .word (spells_stringText name) (.word (.mark .colon) (laid.indented filled space))

theorem Laid.comma {text rest : List Char} {part more : List Token} (laid : Laid Blank part text)
    (filled : part ≠ []) (others : Laid Blank more rest) (indent : Nat) :
    Laid Blank (.mark .comma :: part ++ more) (',' :: newline indent ++ (text ++ rest)) := by
  have inside := (laid.indented filled (blank_newline indent)).append others
  rw [List.append_assoc] at inside
  change Laid Blank _ ([','] ++ (newline indent ++ (text ++ rest)))
  exact .word (.mark .comma) inside

theorem Laid.enclosed {text rest : List Char} {first : List Token} {parts : List (List Token)}
    (laid : Laid Blank first text) (filled : first ≠ [])
    (others : Laid Blank (parts.flatMap fun part => .mark .comma :: part) rest)
    (opener closer : Mark) (indent : Nat) :
    Laid Blank (.mark opener :: separated (first :: parts) ++ [.mark closer])
      (opener.char :: newline (indent + 1) ++ text ++
        (rest ++ newline indent ++ [closer.char])) := by
  have opened := (laid.indented filled (blank_newline (indent + 1))).append others
  have closing : Laid Blank [.mark closer] ([closer.char] ++ []) := .word (.mark closer) .nil
  have closed := closing.indented (List.cons_ne_nil _ _) (blank_newline indent)
  have whole := Laid.word (.mark opener) (opened.append closed)
  simpa only [separated, List.append_assoc, List.cons_append, List.nil_append,
    List.append_nil] using whole

/-! ## Values without numbers -/

inductive Numberless : Json → Prop
  | null : Numberless .null
  | boolean (value : Bool) : Numberless (.boolean value)
  | string (value : String) : Numberless (.string value)
  | list {items : List Json} (each : ∀ item ∈ items, Numberless item) : Numberless (.list items)
  | object {members : List (String × Json)} (each : ∀ member ∈ members, Numberless member.2) :
      Numberless (.object members)

/-- The tokens are read as the value, where as many brackets may be open as there are
tokens. -/
def ReadsAs (tokens : List Token) (json : Json) : Prop :=
  ∀ depth, tokens.length ≤ depth → ReadsPart (value depth) tokens json

theorem ReadsAs.ne_nil {tokens : List Token} {json : Json} (reads : ReadsAs tokens json) :
    tokens ≠ [] := by
  obtain ⟨⟨first, more, rfl, -⟩, -⟩ := reads tokens.length (Nat.le_refl _)
  exact List.cons_ne_nil first more

theorem readsAs_null : ReadsAs [.null] .null :=
  fun depth _ => ⟨⟨_, _, rfl, rfl⟩, reads_value_null depth⟩

theorem readsAs_boolean (flag : Bool) : ReadsAs [.boolean flag] (.boolean flag) :=
  fun depth _ => ⟨⟨_, _, rfl, rfl⟩, reads_value_boolean depth flag⟩

theorem readsAs_string (text : String) : ReadsAs [.string text] (.string text) :=
  fun depth _ => ⟨⟨_, _, rfl, rfl⟩, reads_value_string depth text⟩

theorem length_le_separated {part : List Token} {parts : List (List Token)}
    (member : part ∈ parts) : part.length ≤ (separated parts).length := by
  cases parts with
  | nil => cases member
  | cons first rest =>
      rw [separated, List.length_append]
      rcases List.mem_cons.mp member with rfl | inside
      · exact Nat.le_add_right _ _
      · have listed : (.mark .comma :: part).length ≤
            (rest.flatMap fun part => .mark .comma :: part).length :=
          (List.sublist_flatten_of_mem (List.mem_map_of_mem inside)).length_le
        rw [List.length_cons] at listed
        omega

theorem readsAs_list {parts : List (List Token)} {items : List Json}
    (each : List.Forall₂ ReadsAs parts items) : ReadsAs (listTokens parts) (.list items) := by
  intro depth enough
  -- the brackets are two tokens, so that fewer are left for each of the parts
  simp only [listTokens, List.length_append, List.length_cons] at enough
  obtain ⟨inner, rfl⟩ : ∃ inner, depth = inner + 1 := ⟨depth - 1, by omega⟩
  refine ⟨⟨_, _, rfl, rfl⟩, reads_value_list ?_⟩
  have short : ∀ part ∈ parts, part.length ≤ inner := by
    intro part member
    have bound := length_le_separated member
    omega
  exact ((List.forall₂_and_left _ _).mpr ⟨short, each⟩).imp fun _ _ known => known.2 inner known.1

theorem readsAs_object {parts : List (String × List Token)} {members : List (String × Json)}
    (each : List.Forall₂ (fun part member => part.1 = member.1 ∧ ReadsAs part.2 member.2)
      parts members) : ReadsAs (objectTokens parts) (.object members) := by
  intro depth enough
  simp only [objectTokens, List.length_append, List.length_cons] at enough
  obtain ⟨inner, rfl⟩ : ∃ inner, depth = inner + 1 := ⟨depth - 1, by omega⟩
  refine ⟨⟨_, _, rfl, rfl⟩, reads_value_object ?_⟩
  have short : ∀ part ∈ parts, part.2.length ≤ inner := by
    intro part member
    have bound := length_le_separated
      (List.mem_map_of_mem (f := fun part => memberTokens part.1 part.2) member)
    have fewer : part.2.length ≤ (memberTokens part.1 part.2).length :=
      Nat.le_add_right part.2.length 2
    omega
  exact ((List.forall₂_and_left _ _).mpr ⟨short, each⟩).imp fun _ _ known =>
    ⟨known.2.1, (known.2.2 inner known.1).2⟩

/-! ## Layouts -/

/-- The text lays out tokens that are read as the value. -/
def Lays (text : List Char) (json : Json) : Prop :=
  ∃ tokens, Laid Blank tokens text ∧ ReadsAs tokens json

theorem ReadsAs.lays {token : Token} {word : List Char} {json : Json}
    (reads : ReadsAs [token] json) (spelled : Spells token word) : Lays word json := by
  have laid := Laid.word spelled .nil
  rw [List.append_nil] at laid
  exact ⟨[token], laid, reads⟩

theorem exists_items {indent : Nat} {items : List Json}
    (each : ∀ item ∈ items, Lays (layout indent item) item) :
    ∃ parts, Laid Blank (parts.flatMap fun part => .mark .comma :: part)
      (layoutItems indent items) ∧ List.Forall₂ ReadsAs parts items := by
  induction items with
  | nil => exact ⟨[], .nil, .nil⟩
  | cons item rest ih =>
      obtain ⟨first, others⟩ := List.forall_mem_cons.mp each
      obtain ⟨tokens, laid, reads⟩ := first
      obtain ⟨parts, laidRest, readsRest⟩ := ih others
      exact ⟨tokens :: parts, laid.comma reads.ne_nil laidRest indent, .cons reads readsRest⟩

theorem exists_members {indent : Nat} {members : List (String × Json)}
    (each : ∀ member ∈ members, Lays (layout indent member.2) member.2) :
    ∃ parts : List (String × List Token),
      Laid Blank ((parts.map fun part => memberTokens part.1 part.2).flatMap
        fun part => .mark .comma :: part) (layoutMembers indent members) ∧
      List.Forall₂ (fun part member => part.1 = member.1 ∧ ReadsAs part.2 member.2)
        parts members := by
  induction members with
  | nil => exact ⟨[], .nil, .nil⟩
  | cons member rest ih =>
      obtain ⟨name, json⟩ := member
      obtain ⟨first, others⟩ := List.forall_mem_cons.mp each
      obtain ⟨tokens, laid, reads⟩ := first
      obtain ⟨parts, laidRest, readsRest⟩ := ih others
      refine ⟨(name, tokens) :: parts, ?_, .cons ⟨rfl, reads⟩ readsRest⟩
      have whole := (laid.member reads.ne_nil name).comma (List.cons_ne_nil _ _) laidRest indent
      simpa only [layoutMembers, List.map_cons, List.flatMap_cons, List.append_assoc,
        List.cons_append, List.nil_append] using whole

theorem lays_list {indent : Nat} {items : List Json}
    (each : ∀ item ∈ items, Lays (layout (indent + 1) item) item) :
    Lays (layout indent (.list items)) (.list items) := by
  cases items with
  | nil =>
      refine ⟨listTokens [], ?_, readsAs_list .nil⟩
      exact .word (.mark .openList) (.word (.mark .closeList) .nil)
  | cons item rest =>
      obtain ⟨first, others⟩ := List.forall_mem_cons.mp each
      obtain ⟨tokens, laid, reads⟩ := first
      obtain ⟨parts, laidRest, readsRest⟩ := exists_items others
      refine ⟨listTokens (tokens :: parts), ?_, readsAs_list (.cons reads readsRest)⟩
      exact laid.enclosed reads.ne_nil laidRest .openList .closeList indent

theorem lays_object {indent : Nat} {members : List (String × Json)}
    (each : ∀ member ∈ members, Lays (layout (indent + 1) member.2) member.2) :
    Lays (layout indent (.object members)) (.object members) := by
  cases members with
  | nil =>
      refine ⟨objectTokens [], ?_, readsAs_object .nil⟩
      exact .word (.mark .openObject) (.word (.mark .closeObject) .nil)
  | cons member rest =>
      obtain ⟨name, json⟩ := member
      obtain ⟨first, others⟩ := List.forall_mem_cons.mp each
      obtain ⟨tokens, laid, reads⟩ := first
      obtain ⟨parts, laidRest, readsRest⟩ := exists_members others
      refine ⟨objectTokens ((name, tokens) :: parts), ?_,
        readsAs_object (.cons ⟨rfl, reads⟩ readsRest)⟩
      have whole := (laid.member reads.ne_nil name).enclosed (List.cons_ne_nil _ _) laidRest
        .openObject .closeObject indent
      simpa only [layout, objectTokens, Mark.char, List.map_cons, List.append_assoc,
        List.cons_append, List.nil_append] using whole

theorem Numberless.lays {json : Json} (numberless : json.Numberless) (indent : Nat) :
    Lays (layout indent json) json := by
  induction numberless generalizing indent with
  | null => exact readsAs_null.lays .null
  | boolean flag =>
      cases flag with
      | true => exact (readsAs_boolean true).lays .true
      | false => exact (readsAs_boolean false).lays .false
  | string text => exact (readsAs_string text).lays (spells_stringText text)
  | list _ ih => exact lays_list fun item member => ih item member (indent + 1)
  | object _ ih => exact lays_object fun member listed => ih member listed (indent + 1)

/-- Reads a text that holds one value. No more brackets can be open in it than it has
characters. -/
def ofText? (text : String) : Option Json :=
  (whole (value text.toList.length) text.toList).toOption

theorem Numberless.ofText?_pretty {json : Json} (numberless : json.Numberless) :
    ofText? json.pretty = some json := by
  obtain ⟨tokens, laid, reads⟩ := numberless.lays 0
  have nothing : Blank [] := by decide
  have read := whole_eq_ok (reads _ laid.length_le).2 laid nothing
  rw [List.append_nil] at read
  rw [ofText?, pretty, String.toList_ofList, read]
  rfl

end Externs.Json
