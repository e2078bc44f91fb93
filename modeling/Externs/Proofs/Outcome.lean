import Mathlib.Data.List.Forall2

/-!
# Outcomes of computations that may fail

What can be said of the parts of a computation once it has given a value, what its
value is ensured to be, which of several errors it reports, and when two computations
come to the same.
-/

set_option autoImplicit false

namespace Externs

/-! ## Outcomes that are values -/

namespace Outcome

variable {ε α β γ : Type}

theorem bind_eq_ok {outcome : Except ε α} {next : α → Except ε β} {result : β}
    (success : outcome >>= next = .ok result) :
    ∃ value, outcome = .ok value ∧ next value = .ok result := by
  cases outcome with
  | error error => exact nomatch success
  | ok value => exact ⟨value, rfl, success⟩

theorem map_eq_ok {outcome : Except ε α} {f : α → β} {result : β}
    (success : outcome.map f = .ok result) : ∃ value, outcome = .ok value ∧ f value = result := by
  cases outcome with
  | error error => exact nomatch success
  | ok value => exact ⟨value, rfl, Except.ok.inj success⟩

theorem map_eq_error_iff {outcome : Except ε α} {f : α → β} {error : ε} :
    f <$> outcome = .error error ↔ outcome = .error error := by
  cases outcome with
  | error other => simp
  | ok value => simp

/-- Every result of a list comes from one of its items. -/
theorem exists_of_mem_mapM {f : α → Except ε β} {inputs : List α} {results : List β}
    (success : inputs.mapM f = .ok results) :
    ∀ result ∈ results, ∃ input ∈ inputs, f input = .ok result := by
  induction inputs generalizing results with
  | nil =>
      obtain rfl : [] = results := Except.ok.inj success
      exact fun result member => nomatch member
  | cons input rest ih =>
      rw [List.mapM_cons] at success
      obtain ⟨first, found, success⟩ := bind_eq_ok success
      obtain ⟨others, later, success⟩ := bind_eq_ok success
      obtain rfl : first :: others = results := Except.ok.inj success
      intro result member
      cases List.mem_cons.mp member with
      | inl same => exact ⟨input, List.mem_cons_self, same ▸ found⟩
      | inr member =>
          obtain ⟨origin, inRest, lowered⟩ := ih later result member
          exact ⟨origin, List.mem_cons_of_mem _ inRest, lowered⟩

/-- What is made of the results of a list can be made of each of them. -/
theorem mapM_bind_pure_eq_ok {f : α → Except ε β} (g : β → γ) {inputs : List α}
    {results : List β} (success : inputs.mapM f = .ok results) :
    (inputs.mapM fun input => do return g (← f input)) = .ok (results.map g) := by
  induction inputs generalizing results with
  | nil =>
      obtain rfl : [] = results := Except.ok.inj success
      rfl
  | cons input rest ih =>
      rw [List.mapM_cons] at success
      obtain ⟨first, found, success⟩ := bind_eq_ok success
      obtain ⟨others, later, success⟩ := bind_eq_ok success
      obtain rfl : first :: others = results := Except.ok.inj success
      rw [List.mapM_cons, found, ih later]
      rfl

end Outcome

/-! ## What an outcome ensures -/

/-- What holds of the value of an outcome, if it has one. -/
def Ensures {ε α : Type} (outcome : Except ε α) (post : α → Prop) : Prop :=
  ∀ value, outcome = .ok value → post value

namespace Ensures

variable {ε α β : Type}

theorem pure {value : α} {post : α → Prop} (holds : post value) :
    Ensures (Pure.pure value : Except ε α) post := by
  intro other same
  rwa [← Except.ok.inj same]

theorem imp {outcome : Except ε α} {post final : α → Prop} (ensures : Ensures outcome post)
    (weaker : ∀ value, post value → final value) : Ensures outcome final :=
  fun value success => weaker value (ensures value success)

theorem throw (error : ε) (post : α → Prop) :
    Ensures (MonadExcept.throw error : Except ε α) post := by
  intro value same
  exact nomatch same

theorem bind {outcome : Except ε α} {next : α → Except ε β} {post : α → Prop}
    {final : β → Prop} (first : Ensures outcome post)
    (second : ∀ value, post value → Ensures (next value) final) :
    Ensures (outcome >>= next) final := by
  cases outcome with
  | error error => exact throw error final
  | ok value => exact second value (first value rfl)

theorem after {outcome : Except ε α} {next : α → Except ε β} {final : β → Prop}
    (second : ∀ value, Ensures (next value) final) : Ensures (outcome >>= next) final := by
  have first : Ensures outcome fun _ => True := fun _ _ => trivial
  exact first.bind fun value _ => second value

theorem map {outcome : Except ε α} {post : α → Prop} {final : β → Prop} {f : α → β}
    (ensures : Ensures outcome post) (holds : ∀ value, post value → final (f value)) :
    Ensures (f <$> outcome) final := by
  cases outcome with
  | error error => exact throw error final
  | ok value => exact pure (holds value (ensures value rfl))

theorem mapM {outcome : α → Except ε β} {post : α → β → Prop} {inputs : List α}
    (ensures : ∀ input ∈ inputs, Ensures (outcome input) (post input)) :
    Ensures (inputs.mapM outcome) (List.Forall₂ post inputs) := by
  induction inputs with
  | nil => exact pure .nil
  | cons input rest ih =>
      rw [List.mapM_cons]
      refine (ensures input List.mem_cons_self).bind fun value holds => ?_
      refine (ih fun later member => ensures later (List.mem_cons_of_mem _ member)).bind ?_
      exact fun values all => pure (.cons holds all)

theorem mapM_forall {outcome : α → Except ε β} {post : β → Prop} {inputs : List α}
    (ensures : ∀ input ∈ inputs, Ensures (outcome input) post) :
    Ensures (inputs.mapM outcome) (fun values => ∀ value ∈ values, post value) := by
  intro values success
  have all := mapM ensures values success
  clear success ensures
  induction all with
  | nil => exact fun value member => nomatch member
  | cons holds _ ih => exact List.forall_mem_cons.mpr ⟨holds, ih⟩

end Ensures

/-! ## The first of several errors -/

/-- A computation fails with the first of the errors, and succeeds if there is none. -/
def Reports {ε α : Type} (outcome : Except ε α) (errors : List ε) : Prop :=
  match outcome with
  | .error error => errors.head? = some error
  | .ok _ => errors = []

namespace Reports

variable {ε α β : Type}

theorem pure (value : α) : Reports (Pure.pure value : Except ε α) [] :=
  rfl

theorem throw (error : ε) (later : List ε) :
    Reports (MonadExcept.throw error : Except ε α) (error :: later) :=
  rfl

/-- What is computed later is looked at only if there was no error before. -/
theorem bind {outcome : Except ε α} {next : α → Except ε β} {errors later : List ε}
    (first : Reports outcome errors) (second : ∀ value, Reports (next value) later) :
    Reports (outcome >>= next) (errors ++ later) := by
  cases outcome with
  | error error =>
      have found : errors.head? = some error := first
      change (errors ++ later).head? = some error
      rw [List.head?_append, found, Option.some_or]
  | ok value =>
      have none : errors = [] := first
      rw [none, List.nil_append]
      exact second value

theorem map {outcome : Except ε α} {errors : List ε} (f : α → β)
    (reports : Reports outcome errors) : Reports (f <$> outcome) errors := by
  cases outcome with
  | error error => exact reports
  | ok value => exact reports

theorem mapM {outcome : α → Except ε β} {errors : α → List ε}
    (each : ∀ item, Reports (outcome item) (errors item)) (items : List α) :
    Reports (items.mapM outcome) (items.flatMap errors) := by
  induction items with
  | nil => exact pure []
  | cons item rest ih =>
      rw [List.mapM_cons, List.flatMap_cons]
      apply (each item).bind
      intro value
      exact ih.map (value :: ·)

/-- A computation that only goes on to a value reports what it did before. -/
theorem bind_pure {outcome : Except ε α} {errors : List ε} {f : α → β}
    (reports : Reports outcome errors) :
    Reports (outcome >>= fun value => Pure.pure (f value)) errors := by
  have later := reports.bind fun value => pure (f value)
  rwa [List.append_nil] at later

theorem eq_error_iff {outcome : Except ε α} {errors : List ε}
    (reports : Reports outcome errors) (error : ε) :
    outcome = .error error ↔ errors.head? = some error := by
  cases outcome with
  | error found =>
      have first : errors.head? = some found := reports
      rw [first, Except.error.injEq, Option.some.injEq]
  | ok value =>
      have none : errors = [] := reports
      simp [none]

theorem exists_ok_iff {outcome : Except ε α} {errors : List ε}
    (reports : Reports outcome errors) : (∃ value, outcome = .ok value) ↔ errors = [] := by
  cases outcome with
  | error error =>
      have first : errors.head? = some error := reports
      constructor
      · rintro ⟨value, success⟩
        cases success
      · rintro rfl
        cases first
  | ok value => exact ⟨fun _ => reports, fun _ => ⟨value, rfl⟩⟩

end Reports

/-! ## Outcomes that agree -/

/-- Two computations fail with the same error, or give related values. -/
inductive Agree {ε α β : Type} (related : α → β → Prop) : Except ε α → Except ε β → Prop where
  | error (error : ε) : Agree related (.error error) (.error error)
  | ok {one : α} {other : β} : related one other → Agree related (.ok one) (.ok other)

namespace Agree

variable {ε α β γ δ : Type} {related : α → β → Prop} {one : Except ε α} {other : Except ε β}

theorem bind {final : γ → δ → Prop} {next : α → Except ε γ} {later : β → Except ε δ}
    (first : Agree related one other)
    (second : ∀ value result, related value result → Agree final (next value) (later result)) :
    Agree final (one >>= next) (other >>= later) := by
  cases first with
  | error error => exact .error error
  | ok holds => exact second _ _ holds

theorem map_left {final : γ → β → Prop} {f : α → γ} (agree : Agree related one other)
    (holds : ∀ value result, related value result → final (f value) result) :
    Agree final (f <$> one) other := by
  cases agree with
  | error error => exact .error error
  | ok both => exact .ok (holds _ _ both)

theorem map_right {final : α → δ → Prop} {g : β → δ} (agree : Agree related one other)
    (holds : ∀ value result, related value result → final value (g result)) :
    Agree final one (g <$> other) := by
  cases agree with
  | error error => exact .error error
  | ok both => exact .ok (holds _ _ both)

theorem map_eq {f : α → γ} {g : β → γ} (agree : Agree related one other)
    (same : ∀ value result, related value result → f value = g result) :
    f <$> one = g <$> other := by
  cases agree with
  | error error => rfl
  | ok both => exact congrArg Except.ok (same _ _ both)

theorem ensures {post : β → Prop} (agree : Agree related one other)
    (holds : ∀ value result, related value result → post result) : Ensures other post := by
  intro result success
  cases agree with
  | error error => cases success
  | ok both =>
      obtain rfl := Except.ok.inj success
      exact holds _ _ both

end Agree

end Externs
