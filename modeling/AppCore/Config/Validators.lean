/-
  AppCore.Config.Validators

  The two checks of the dependency graph.  `validate_dependency_graph` remembers what it has
  visited and `validate_module_dependencies` does not; both end, and both find a fault exactly
  when a dependency is unknown or there is a cycle.
-/

import AppCore.Config.Features
import AppCore.Config.Normalize

namespace AppCore
namespace Config

open Digraph

/-- Every dependency of a known entry is known, and no entry depends on itself, directly or
    through others. -/
def WellFounded (known : List Text) (next : Text → List Text) : Prop :=
  (∀ a ∈ known, ∀ b ∈ next a, b ∈ known) ∧ ∀ a ∈ known, ¬ Relation.TransGen (Edge next) a a

section Validators

variable {modules : List Module} {known : List Text} {property : Text → Text}

theorem keys_dependencyMap (hnd : (configs modules).Nodup) :
    (dependencyMap modules).map (·.1) = configs modules := by
  have hkeys : ((modules.map fun m => (m.config, m.depends)).map (·.1)).Nodup := by
    rwa [List.map_map]
  rw [dependencyMap, Dict.ofList_eq_self hkeys, List.map_map]
  rfl

/-- A search of all nodes passes exactly on a well-founded graph, with or without memo. -/
theorem searchAll_passes_iff (next : Text → List Text) (memo : Bool) :
    searchAll next known memo (known.length + 1) ≠ none ∧
      (Passes (searchAll next known memo (known.length + 1)) ↔ WellFounded known next) := by
  obtain ⟨r, hr, hok⟩ := searchAll_spec next memo (Nat.lt_succ_self known.length)
  rw [hr]
  refine ⟨Option.some_ne_none r, ?_⟩
  rw [WellFounded, ← forall_sound_iff, ← hok]
  constructor
  · rintro ⟨visited, h⟩
    exact ⟨visited, Option.some.inj h⟩
  · rintro ⟨visited, rfl⟩
    exact ⟨visited, rfl⟩

theorem validateDependencyGraph_iff (hnd : (configs modules).Nodup) :
    validateDependencyGraph modules ≠ none ∧
      (Passes (validateDependencyGraph modules) ↔
        WellFounded (configs modules) (dependsOn modules)) := by
  have hsame : validateDependencyGraph modules =
      searchAll (dependsOn modules) (configs modules) true ((configs modules).length + 1) := by
    have hlength : (dependencyMap modules).length = (configs modules).length := by
      rw [← keys_dependencyMap hnd, List.length_map]
    rw [← keys_dependencyMap hnd, List.length_map]
    rfl
  rw [hsame]
  exact searchAll_passes_iff (dependsOn modules) true

theorem validateModuleDependencies_iff :
    validateModuleDependencies known property ≠ none ∧
      (Passes (validateModuleDependencies known property) ↔
        WellFounded known fun config => cmakeDependencies (property config)) :=
  searchAll_passes_iff _ false

/-- Only the dependencies of known entries count. -/
theorem wellFounded_congr {next next' : Text → List Text} (h : ∀ a ∈ known, next a = next' a) :
    WellFounded known next ↔ WellFounded known next' := by
  have himp : ∀ {next next' : Text → List Text}, (∀ a ∈ known, next a = next' a) →
      WellFounded known next → WellFounded known next' := by
    intro next next' h hnext
    have hknown : ∀ a ∈ known, ∀ b ∈ next' a, b ∈ known := by
      intro a ha b hb
      rw [← h a ha] at hb
      exact hnext.1 a ha b hb
    refine ⟨hknown, fun a ha hcycle => hnext.2 a ha ?_⟩
    -- a path from a known entry stays in the known entries
    have hpath : ∀ b, Relation.TransGen (Edge next') a b →
        b ∈ known ∧ Relation.TransGen (Edge next) a b := by
      intro b hb
      induction hb with
      | single hstep =>
          refine ⟨hknown a ha _ hstep, Relation.TransGen.single ?_⟩
          unfold Edge at hstep ⊢
          rwa [h a ha]
      | @tail b c _ hstep ih =>
          refine ⟨hknown b ih.1 c hstep, ih.2.tail ?_⟩
          unfold Edge at hstep ⊢
          rwa [h b ih.1]
    exact (hpath a hcycle).2
  exact ⟨himp h, himp fun a ha => (h a ha).symm⟩

/-- The two validators, on modules with different configuration entries and any dependency
    lists.  Both end on every graph; each passes exactly when all dependencies it sees are known
    and none of them is on a cycle; so where CMake's properties hold the dependency lists of the
    modules, they give the same verdict. -/
theorem validators_agree (hnd : (configs modules).Nodup) (property : Text → Text) :
    validateDependencyGraph modules ≠ none ∧
      validateModuleDependencies (configs modules) property ≠ none ∧
      (Passes (validateDependencyGraph modules) ↔
        (∀ m ∈ modules, ∀ d ∈ m.depends, d ∈ configs modules) ∧
          ∀ c, ¬ Relation.TransGen (Edge (dependsOn modules)) c c) ∧
      ((∀ m ∈ modules, cmakeDependencies (property m.config) = m.depends) →
        (Passes (validateModuleDependencies (configs modules) property) ↔
          Passes (validateDependencyGraph modules))) := by
  obtain ⟨hpyEnds, hpy⟩ := validateDependencyGraph_iff hnd
  have hcmakeEnds : validateModuleDependencies (configs modules) property ≠ none :=
    validateModuleDependencies_iff.1
  have hcmake : Passes (validateModuleDependencies (configs modules) property) ↔
      WellFounded (configs modules) fun config => cmakeDependencies (property config) :=
    validateModuleDependencies_iff.2
  refine ⟨hpyEnds, hcmakeEnds, hpy.trans ?_, fun hsame => ?_⟩
  · unfold WellFounded
    refine and_congr ?_ ⟨fun h c hcycle => ?_, fun h a _ => h a⟩
    · constructor
      · intro h m hm d hd
        apply h m.config (mem_configs hm)
        rwa [dependsOn_eq hnd hm]
      · intro h a ha d hd
        obtain ⟨m, hm, rfl⟩ := List.mem_map.mp ha
        rw [dependsOn_eq hnd hm] at hd
        exact h m hm d hd
    · -- an entry on a cycle has a dependency, so it is known
      obtain ⟨b, hb, _⟩ := Relation.TransGen.head'_iff.mp hcycle
      by_cases hc : c ∈ configs modules
      · exact h c hc hcycle
      · unfold Edge at hb
        rw [dependsOn_eq_nil hnd hc] at hb
        cases hb
  · rw [hcmake, hpy]
    apply wellFounded_congr
    intro c hc
    obtain ⟨m, hm, rfl⟩ := List.mem_map.mp hc
    rw [hsame m hm, dependsOn_eq hnd hm]

/-- A diamond passes both checks, although its last entry is reached twice; with an edge back
    to the first entry it passes neither. -/
def diamond (back : List String) : List Module :=
  [plainModule "a" "A" ["B", "C"] true, plainModule "b" "B" ["D"] true,
    plainModule "c" "C" ["D"] true, plainModule "d" "D" back true]

/-- The property values CMake holds for the modules. -/
def joinedDepends (modules : List Module) (config : Text) : Text :=
  [','].intercalate (dependsOn modules config)

theorem validators_agree_diamond :
    (Passes (validateModuleDependencies (configs (diamond [])) (joinedDepends (diamond []))) ↔
        Passes (validateDependencyGraph (diamond []))) ∧
      validateDependencyGraph (diamond []) =
        some (.ok ["D".toList, "B".toList, "C".toList, "A".toList]) ∧
      validateDependencyGraph (diamond ["A"]) =
        some (.error (.cycle ["A".toList, "B".toList, "D".toList, "A".toList])) := by
  have hnd : (configs (diamond [])).Nodup := by decide
  have hsame : ∀ m ∈ diamond [],
      cmakeDependencies (joinedDepends (diamond []) m.config) = m.depends := by decide
  exact ⟨(validators_agree hnd (joinedDepends (diamond []))).2.2.2 hsame, by decide, by decide⟩

end Validators

end Config
end AppCore
