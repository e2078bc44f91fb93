import Externs.Generator
import Externs.Proofs.Model.Violations
import Mathlib.Data.List.Nodup

/-!
# Targets of declarations

Names are checked as they are written, and declared with a path in front of them. A
name without a dot gets the path of its namespace, and a name with a dot only the root,
so two names can be distinct and still be declared as the same target. This module says
when that happens.
-/

set_option autoImplicit false

namespace Externs

/-! ## Distinct names -/

/-- The walk finds nothing exactly if the names differ from each other and from all
that were seen before. -/
theorem firstRepeated?_eq_none_iff (seen names : List String) :
    firstRepeated? seen names = none ↔ names.Nodup ∧ ∀ name ∈ names, name ∉ seen := by
  induction names generalizing seen with
  | nil => simp [firstRepeated?]
  | cons name rest ih =>
      rw [firstRepeated?, List.nodup_cons, List.forall_mem_cons]
      by_cases repeated : name ∈ seen
      · simp [repeated]
      · rw [if_neg (by simpa using repeated), ih]
        constructor
        · rintro ⟨unique, fresh⟩
          have absent : name ∉ rest := fun member => fresh name member List.mem_cons_self
          have unseen : ∀ other ∈ rest, other ∉ seen :=
            fun other member found => fresh other member (List.mem_cons_of_mem _ found)
          exact ⟨⟨absent, unique⟩, repeated, unseen⟩
        · rintro ⟨⟨absent, unique⟩, -, unseen⟩
          refine ⟨unique, fun other member found => ?_⟩
          cases List.mem_cons.mp found with
          | inl same => exact absent (same ▸ member)
          | inr earlier => exact unseen other member earlier

theorem Generator.nodup_names {generator : Generator} {space : Namespace} {text : String}
    (generated : generator.generate space = .ok text) : space.names.Nodup := by
  cases found : firstRepeated? [] space.names with
  | none => exact ((firstRepeated?_eq_none_iff [] space.names).mp found).1
  | some name =>
      rw [generate, listing, Namespace.checkNames, Namespace.names_eq_map_entities, found]
        at generated
      cases generated

/-! ## Distinct targets -/

/-- What the entities of a namespace are declared as, in their order. -/
def Generator.targets (generator : Generator) (space : Namespace) : List String :=
  space.entities.map fun entity => (generator.site space).scope.qualify entity.name

/-- Two names are declared as one target only if one of them spells out the path that
the other one is given. -/
theorem Scope.qualify_eq_iff (scope : Scope) (first second : String) :
    scope.qualify first = scope.qualify second ↔
      first = second ∨
        ('.' ∉ first.toList ∧ second = scope.space ++ "." ++ first) ∨
        ('.' ∉ second.toList ∧ first = scope.space ++ "." ++ second) := by
  have dotted (name : String) : '.' ∈ (scope.space ++ "." ++ name).toList := by simp
  simp only [qualify, List.contains_iff_mem]
  by_cases inFirst : '.' ∈ first.toList
  · by_cases inSecond : '.' ∈ second.toList
    · simp [inFirst, inSecond]
    · have different : first ≠ second := by
        rintro rfl
        exact inSecond inFirst
      simp [inFirst, inSecond, different, String.append_assoc]
  · by_cases inSecond : '.' ∈ second.toList
    · have different : first ≠ second := by
        rintro rfl
        exact inFirst inSecond
      simp [inFirst, inSecond, different, String.append_assoc, eq_comm]
    · have short : second ≠ scope.space ++ "." ++ first := by
        rintro rfl
        exact inSecond (dotted first)
      have other : first ≠ scope.space ++ "." ++ second := by
        rintro rfl
        exact inFirst (dotted second)
      simp [inFirst, inSecond, short, other]

theorem Generator.targets_eq_map_names (generator : Generator) (space : Namespace) :
    generator.targets space = space.names.map (generator.site space).scope.qualify := by
  rw [targets, ← Namespace.names_eq_map_entities, List.map_map]
  rfl

/-- The targets of a declaration file are distinct exactly if no entity spells out the
full path of another one as its name. -/
theorem Generator.nodup_targets_iff {generator : Generator} {space : Namespace} {text : String}
    (generated : generator.generate space = .ok text) :
    (generator.targets space).Nodup ↔
      ∀ name ∈ space.names, '.' ∉ name.toList → space.name ++ "." ++ name ∉ space.names := by
  rw [targets_eq_map_names, List.nodup_map_iff_inj_on (nodup_names generated)]
  constructor
  · intro injective name member plain spelled
    have same := ((generator.site space).scope.qualify_eq_iff name _).mpr (.inr (.inl ⟨plain, rfl⟩))
    have dotted : '.' ∈ (space.name ++ "." ++ name).toList := by simp
    rw [← injective name member _ spelled same] at dotted
    exact plain dotted
  · intro unspelled first inFirst second inSecond same
    rcases ((generator.site space).scope.qualify_eq_iff first second).mp same with
      same | ⟨plain, rfl⟩ | ⟨plain, rfl⟩
    · exact same
    · exact absurd inSecond (unspelled first inFirst plain)
    · exact absurd inFirst (unspelled second inSecond plain)

/-! ### Two names of a type -/

def plainGenerator : Generator :=
  ⟨{}, ⟨2015, "compiler.py"⟩⟩

/-- A namespace with two types. -/
def tabsSpace (first second : String) : Namespace where
  name := "tabs"
  description := none
  sourceFile := "tabs.json"
  types :=
    [⟨first, none, none, .alias ⟨.string, false⟩⟩, ⟨second, none, none, .alias ⟨.integer, false⟩⟩]
  functions := []
  events := []

theorem nodup_targets_otherSpace :
    ∃ text, plainGenerator.generate (tabsSpace "Tab" "windows.Tab") = .ok text ∧
      (plainGenerator.targets (tabsSpace "Tab" "windows.Tab")).Nodup := by
  obtain ⟨text, generated⟩ :
      ∃ text, plainGenerator.generate (tabsSpace "Tab" "windows.Tab") = .ok text := ⟨_, rfl⟩
  exact ⟨text, generated, (Generator.nodup_targets_iff generated).mpr (by decide)⟩

/-- The check of names passes, and both types are declared as `chrome.tabs.Tab`. -/
theorem targets_sameSpace :
    (∃ text, plainGenerator.generate (tabsSpace "Tab" "tabs.Tab") = .ok text) ∧
      plainGenerator.targets (tabsSpace "Tab" "tabs.Tab") = ["chrome.tabs.Tab", "chrome.tabs.Tab"] ∧
      ¬(plainGenerator.targets (tabsSpace "Tab" "tabs.Tab")).Nodup :=
  ⟨⟨_, rfl⟩, by decide, by decide⟩

end Externs
