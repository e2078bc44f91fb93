import Externs.Json.Record

/-!
# What readers give

What holds of every value that a reader gives, whatever text it is given. One rule for each
way to build a reader: a loop keeps what each of its steps keeps, and brackets keep what
their contents give.
-/

set_option autoImplicit false

namespace Externs.Json

open Reader

/-- What holds of the value of a reader, if it gives one. -/
def Yields {α : Type} (reader : Reader α) (post : α → Prop) : Prop :=
  ∀ text value rest, reader text = .ok value rest → post value

namespace Yields

section

variable {α β σ : Type} {post : α → Prop} {final : β → Prop}

theorem pure {value : α} (holds : post value) : Yields (Pure.pure value) post := by
  intro text other rest read
  cases read
  exact holds

theorem failHere (problem : Problem) (post : α → Prop) : Yields (Reader.failHere problem) post := by
  intro text value rest read
  cases read

theorem failNext (problem : Problem) (post : α → Prop) : Yields (Reader.failNext problem) post := by
  intro text value rest read
  cases read

theorem refuse (problem : Problem) (post : α → Prop) : Yields (Reader.refuse problem) post := by
  intro text value rest read
  cases read

theorem bind {reader : Reader α} {next : α → Reader β} (first : Yields reader post)
    (second : ∀ value, post value → Yields (next value) final) :
    Yields (reader >>= next) final := by
  intro text result rest read
  change EStateM.bind reader next text = _ at read
  unfold EStateM.bind at read
  cases found : reader text with
  | error fault left =>
      rw [found] at read
      cases read
  | ok value left =>
      rw [found] at read
      exact second value (first text value left found) left result rest read

theorem after {reader : Reader α} {next : α → Reader β}
    (second : ∀ value, Yields (next value) final) : Yields (reader >>= next) final := by
  have first : Yields reader fun _ => True := fun _ _ _ _ => trivial
  exact first.bind fun value _ => second value

theorem map {reader : Reader α} {f : α → β} (yields : Yields reader post)
    (holds : ∀ value, post value → final (f value)) :
    Yields (reader >>= fun value => Pure.pure (f value)) final :=
  yields.bind fun value known => pure (holds value known)

theorem starting {read : Char → Reader α} (yields : ∀ c, Yields (read c) post) :
    Yields (Reader.starting read) post := by
  apply after
  intro first
  cases first with
  | none => exact failNext _ _
  | some c => exact yields c

theorem mismatch (c : Char) (expected : String) (post : α → Prop) :
    Yields (Reader.mismatch c expected) post := by
  unfold Reader.mismatch
  split
  · exact after fun value => failHere _ _
  · split
    · exact failHere _ _
    · split
      · exact failHere _ _
      · exact failNext _ _

theorem optional {value : Reader α} (yields : Yields value post) :
    Yields (Reader.optional value) fun found => ∀ value ∈ found, post value := by
  apply after
  intro first
  split
  · exact after fun _ => after fun _ => pure (by simp)
  · exact yields.map fun value known => by simpa using known

/-- A loop keeps what each of its steps keeps. -/
theorem iterate {step : σ → Reader (ForInStep σ)} (holds : σ → Prop)
    (keeps : ∀ state, holds state → Yields (step state) fun next => holds next.value)
    {state : σ} (start : holds state) : Yields (Reader.iterate step state) holds := by
  suffices upTo : ∀ bound state, holds state → Yields (iterateUpTo step bound state) holds from
    fun text => upTo _ state start text
  intro bound
  induction bound with
  | zero =>
      intro state known
      exact pure known
  | succ bound ih =>
      intro state known text result rest read
      unfold iterateUpTo at read
      split at read
      · cases read
      · next found =>
          cases read
          exact keeps state known _ _ _ found
      · next next left found =>
          exact ih next (keeps state known _ _ _ found) left result rest read

theorem enclosed {contents : Reader α} (close : Reader Unit) (yields : Yields contents post) :
    Yields (Reader.enclosed close contents) post := by
  intro text value rest read
  unfold Reader.enclosed at read
  split at read
  · next found =>
      split at read
      · cases read
        exact yields _ _ _ found
      · cases read
  · split at read <;> cases read

theorem enter {contents : Option (Reader α)} (close : Reader Unit)
    (yields : ∀ reader ∈ contents, Yields reader post) :
    Yields (Reader.enter close contents) post := by
  cases contents with
  | none => exact failNext _ _
  | some reader => exact after fun _ => enclosed close (yields reader rfl)

theorem items {item : Reader α} (yields : Yields item post) :
    Yields (Reader.items item) fun values => ∀ value ∈ values, post value := by
  refine (iterate (fun read => ∀ value ∈ read, post value) ?_ (by simp)).map ?_
  · intro read known
    apply after
    intro more
    cases more with
    | true => exact yields.map fun value holds => List.forall_mem_cons.mpr ⟨holds, known⟩
    | false => exact pure known
  · intro reversed known value member
    exact known value (List.mem_reverse.mp member)

theorem members {value : Reader α} (yields : Yields value post) :
    Yields (Reader.members value) fun members => ∀ member ∈ members, post member.2 := by
  refine (iterate (fun read => ∀ member ∈ read, post member.2) ?_ (by simp)).map ?_
  · intro read known
    apply after
    intro name
    cases name with
    | none => exact pure known
    | some name =>
        apply after
        intro _
        exact yields.map fun value holds => List.forall_mem_cons.mpr ⟨holds, known⟩
  · intro reversed known member listed
    exact known member (List.mem_reverse.mp listed)

theorem list {item : Option (Reader α)} (yields : ∀ reader ∈ item, Yields reader post) :
    Yields (Reader.list item) fun values => ∀ value ∈ values, post value := by
  apply starting
  intro c
  split
  · apply enter
    intro reader given
    obtain ⟨item, found, rfl⟩ := Option.map_eq_some_iff.mp given
    exact items (yields item found)
  · exact mismatch _ _ _

theorem object {value : Option (Reader α)} (expected : String)
    (yields : ∀ reader ∈ value, Yields reader post) :
    Yields (Reader.object expected value) fun members => ∀ member ∈ members, post member.2 := by
  apply starting
  intro c
  split
  · apply enter
    intro reader given
    obtain ⟨value, found, rfl⟩ := Option.map_eq_some_iff.mp given
    exact members (yields value found)
  · exact mismatch _ _ _

end

section

variable {κ σ : Type} {fields : Fields κ σ} {read : κ → Reader (σ → σ)} {holds : σ → Prop}
  (keeps : ∀ field, Yields (read field) fun update =>
    ∀ record, holds record → holds (update record))

include keeps

theorem member {state : σ × List String} (known : holds state.1) :
    Yields (fields.member read state) fun next => holds next.value.1 := by
  obtain ⟨record, names⟩ := state
  apply after
  intro name
  cases name with
  | none => exact pure known
  | some name =>
      dsimp only
      split
      · exact after fun _ => after fun _ => pure known
      · split
        · exact refuse _ _
        · apply after
          intro _
          exact (keeps _).map fun update holds => holds record known

theorem positional (ahead : List κ) (index : Nat) {record : σ} (known : holds record) :
    Yields (fields.positional read ahead index record) holds := by
  induction ahead generalizing index record with
  | nil => exact pure known
  | cons field ahead ih =>
      apply after
      intro more
      cases more with
      | true => exact (keeps field).bind fun update changes => ih (index + 1) (changes record known)
      | false =>
          simp only [Bool.false_eq_true, if_false]
          split
          · exact ih (index + 1) known
          · exact refuse _ _

end

/-- A record keeps what each of its fields keeps. Where no bracket may be entered there is
no record. -/
theorem record {κ σ : Type} {fields : Fields κ σ} {read : Option (κ → Reader (σ → σ))}
    {holds : σ → Prop}
    (keeps : ∀ reads ∈ read, holds fields.initial ∧ ∀ field,
      Yields (reads field) fun update => ∀ record, holds record → holds (update record)) :
    Yields (fields.record read) holds := by
  apply starting
  intro c
  split
  · apply enter
    intro reader given
    obtain ⟨reads, found, rfl⟩ := Option.map_eq_some_iff.mp given
    obtain ⟨start, keeps⟩ := keeps reads found
    refine (iterate (fun state => holds state.1) ?_ start).map fun state known => known
    exact fun state known => member keeps known
  · split
    · apply enter
      intro reader given
      obtain ⟨reads, found, rfl⟩ := Option.map_eq_some_iff.mp given
      obtain ⟨start, keeps⟩ := keeps reads found
      exact positional keeps fields.fields 0 start
    · exact mismatch _ _ _

theorem whole {α : Type} {reader : Reader α} {post : α → Prop} (yields : Yields reader post)
    {text : List Char} {value : α} (read : Reader.whole reader text = .ok value) : post value := by
  unfold Reader.whole at read
  dsimp only at read
  split at read
  · next found =>
      cases read
      refine yields.bind (fun value known => ?_) _ _ _ found
      apply after
      intro last
      cases last with
      | none => exact pure known
      | some c => exact failNext _ _
  · cases read

end Yields

end Externs.Json
