/-
  AppCore.Config.Normalize

  `normalize_dependencies` computes the greatest dependency-closed subset of the enabled
  modules.  A pass takes modules out of the enabled set one at a time, each with a dependency
  outside of the set; when nothing changes any more the set is closed.
-/

import AppCore.Config.Menuconfig

namespace AppCore
namespace Config

open Digraph

/-- What the configuration entries of the modules depend on. -/
abbrev dependsOn (modules : List Module) : Text → List Text :=
  dependenciesOf (dependencyMap modules)

/-- The configuration entries that are enabled. -/
def enabledSet (modules : List Module) : Set Text :=
  {c | ∃ m ∈ modules, m.config = c ∧ m.enabled = true}

/-- The enabled entries of the map. -/
def onEntries (enabled : Dict Text Bool) : Set Text := {c | enabled.get? c = some true}

/-- The modules, with the entries of the map. -/
def withEnabled (modules : List Module) (enabled : Dict Text Bool) : List Module :=
  modules.map fun m => { m with enabled := isEnabled enabled m.config }

/-- The map says of each module what the module says. -/
def Agrees (modules : List Module) (enabled : Dict Text Bool) : Prop :=
  ∀ m ∈ modules, enabled.get? m.config = some m.enabled

section Lookup

variable {modules : List Module} {m : Module}

theorem dependsOn_eq (hnd : (configs modules).Nodup) (hm : m ∈ modules) :
    dependsOn modules m.config = m.depends := by
  have hkeys : ((modules.map fun m => (m.config, m.depends)).map (·.1)).Nodup := by
    rwa [List.map_map]
  rw [dependsOn, dependenciesOf, dependencyMap, Dict.ofList_eq_self hkeys,
    Dict.get?_eq_some_of_mem hkeys (List.mem_map_of_mem hm)]
  rfl

theorem dependsOn_eq_nil {c : Text} (hnd : (configs modules).Nodup) (hc : c ∉ configs modules) :
    dependsOn modules c = [] := by
  have hkeys : ((modules.map fun m => (m.config, m.depends)).map (·.1)).Nodup := by
    rwa [List.map_map]
  have hnone : (dependencyMap modules).get? c = none := by
    rw [Dict.get?_eq_none_iff, dependencyMap, Dict.ofList_eq_self hkeys, List.map_map]
    exact hc
  rw [dependsOn, dependenciesOf, hnone]
  rfl

theorem agrees_enabledMap (hnd : (configs modules).Nodup) :
    Agrees modules (enabledMap modules) := by
  intro m hm
  have hkeys : ((modules.map fun m => (m.config, m.enabled)).map (·.1)).Nodup := by
    rwa [List.map_map]
  rw [enabledMap, Dict.ofList_eq_self hkeys,
    Dict.get?_eq_some_of_mem hkeys (List.mem_map_of_mem hm)]

theorem onEntries_enabledMap (hnd : (configs modules).Nodup) :
    onEntries (enabledMap modules) = enabledSet modules := by
  have hkeys : ((modules.map fun m => (m.config, m.enabled)).map (·.1)).Nodup := by
    rwa [List.map_map]
  ext c
  constructor
  · intro hc
    by_cases hmem : c ∈ configs modules
    · obtain ⟨m, hm, rfl⟩ := List.mem_map.mp hmem
      have hon := (agrees_enabledMap hnd m hm).symm.trans hc
      exact ⟨m, hm, rfl, Option.some.inj hon⟩
    · have hnone : (enabledMap modules).get? c = none := by
        rw [Dict.get?_eq_none_iff, enabledMap, Dict.ofList_eq_self hkeys, List.map_map]
        exact hmem
      have hsome : (enabledMap modules).get? c = some true := hc
      rw [hnone] at hsome
      cases hsome
  · rintro ⟨m, hm, rfl, hon⟩
    show (enabledMap modules).get? m.config = some true
    rw [agrees_enabledMap hnd m hm, hon]

theorem isEnabled_iff {enabled : Dict Text Bool} {c : Text} :
    isEnabled enabled c = true ↔ c ∈ onEntries enabled := by
  unfold isEnabled onEntries
  cases h : enabled.get? c with
  | none => simp [h]
  | some b => simp [h]

end Lookup

section Pass

variable {modules rest : List Module} {enabled : Dict Text Bool} {m : Module}

/-- Turning an entry off takes it out of the set. -/
theorem onEntries_insert (c : Text) :
    onEntries (enabled.insert c false) = onEntries enabled \ {c} := by
  ext c'
  show (enabled.insert c false).get? c' = some true ↔ enabled.get? c' = some true ∧ c' ≠ c
  by_cases h : c' = c
  · simp [h, Dict.get?_insert_self]
  · simp [h, Dict.get?_insert_of_ne h]

theorem mem_configs (hm : m ∈ modules) : m.config ∈ configs modules := List.mem_map_of_mem hm

/-- Setting the entry of another module. -/
theorem Agrees.insert {b : Bool} (h : Agrees rest enabled) (hnew : m.config ∉ configs rest) :
    Agrees rest (enabled.insert m.config b) := by
  intro e he
  have hne : e.config ≠ m.config := by
    intro heq
    exact hnew (heq ▸ mem_configs he)
  rw [Dict.get?_insert_of_ne hne]
  exact h e he

/-- The entries of other modules do not change in a pass. -/
theorem normalizePass_get? {c : Text} (hc : c ∉ configs rest) :
    (normalizePass rest enabled).2.1.get? c = enabled.get? c := by
  induction rest generalizing enabled with
  | nil => rfl
  | cons m rest ih =>
      have hne : c ≠ m.config := fun h => hc (h ▸ List.mem_cons_self)
      have hrest : c ∉ configs rest := fun h => hc (List.mem_cons_of_mem _ h)
      unfold normalizePass
      split
      · exact (ih hrest).trans (Dict.get?_insert_of_ne hne)
      · exact ih hrest

/-- A pass sets the flags of the modules as it sets the entries of the map. -/
theorem normalizePass_modules (hnd : (configs rest).Nodup) (hagrees : Agrees rest enabled) :
    (normalizePass rest enabled).1 = withEnabled rest (normalizePass rest enabled).2.1 ∧
      Agrees (normalizePass rest enabled).1 (normalizePass rest enabled).2.1 := by
  induction rest generalizing enabled with
  | nil => exact ⟨rfl, fun m hm => (List.not_mem_nil hm).elim⟩
  | cons m rest ih =>
      obtain ⟨hnew, hnd'⟩ := List.nodup_cons.mp hnd
      have hm := hagrees m List.mem_cons_self
      have hrest : Agrees rest enabled := fun e he => hagrees e (List.mem_cons_of_mem _ he)
      unfold normalizePass
      split
      · -- the map now has `False` for the module, which the rest of the pass leaves
        have hrest' : Agrees rest (enabled.insert m.config false) := hrest.insert hnew
        obtain ⟨hmodules, hagrees'⟩ := ih hnd' hrest'
        have hentry : (normalizePass rest (enabled.insert m.config false)).2.1.get? m.config =
            some false := by
          rw [normalizePass_get? hnew, Dict.get?_insert_self]
        have hoff : isEnabled (normalizePass rest (enabled.insert m.config false)).2.1 m.config =
            false := by
          rw [isEnabled, hentry]
          rfl
        refine ⟨?_, List.forall_mem_cons.mpr ⟨hentry, hagrees'⟩⟩
        rw [withEnabled, List.map_cons, hoff]
        exact congrArg _ hmodules
      · obtain ⟨hmodules, hagrees'⟩ := ih hnd' hrest
        have hentry : (normalizePass rest enabled).2.1.get? m.config = some m.enabled := by
          rw [normalizePass_get? hnew, hm]
        have hkeep : isEnabled (normalizePass rest enabled).2.1 m.config = m.enabled := by
          rw [isEnabled, hentry]
          rfl
        refine ⟨?_, List.forall_mem_cons.mpr ⟨hentry, hagrees'⟩⟩
        rw [withEnabled, List.map_cons, hkeep]
        exact congrArg _ hmodules

/-- A pass takes modules out of the enabled set, one at a time, and reports if it took any. -/
theorem normalizePass_shrinks {next : Text → List Text} (hnd : (configs rest).Nodup)
    (hagrees : Agrees rest enabled) (hnext : ∀ m ∈ rest, next m.config = m.depends) :
    Relation.ReflTransGen (Shrink next) (onEntries enabled)
        (onEntries (normalizePass rest enabled).2.1) ∧
      ((normalizePass rest enabled).2.2 = false →
        (normalizePass rest enabled).2.1 = enabled ∧
          ∀ m ∈ rest, m.enabled = true → ∀ d ∈ m.depends, d ∈ onEntries enabled) := by
  induction rest generalizing enabled with
  | nil =>
      exact ⟨Relation.ReflTransGen.refl, fun _ => ⟨rfl, fun m hm => (List.not_mem_nil hm).elim⟩⟩
  | cons m rest ih =>
      obtain ⟨hnew, hnd'⟩ := List.nodup_cons.mp hnd
      have hm := hagrees m List.mem_cons_self
      have hrest : Agrees rest enabled := fun e he => hagrees e (List.mem_cons_of_mem _ he)
      have hnext' : ∀ m ∈ rest, next m.config = m.depends :=
        fun e he => hnext e (List.mem_cons_of_mem _ he)
      unfold normalizePass
      split
      · rename_i hoff
        obtain ⟨hon, hmissing⟩ := hoff
        obtain ⟨d, hd, hnot⟩ := List.any_eq_true.mp hmissing
        have hnotin : d ∉ onEntries enabled := by
          rw [← isEnabled_iff]
          simpa using hnot
        have hmem : m.config ∈ onEntries enabled := by
          show enabled.get? m.config = some true
          rw [hm, hon]
        have hfirst : Shrink next (onEntries enabled)
            (onEntries (enabled.insert m.config false)) := by
          rw [onEntries_insert]
          refine Shrink.remove hmem ?_ hnotin
          rw [hnext m List.mem_cons_self]
          exact hd
        have hrest' : Agrees rest (enabled.insert m.config false) := hrest.insert hnew
        exact ⟨(ih hnd' hrest' hnext').1.head hfirst, fun h => by cases h⟩
      · rename_i hkeep
        obtain ⟨hshrinks, hsame⟩ := ih hnd' hrest hnext'
        refine ⟨hshrinks, fun hunchanged => ?_⟩
        obtain ⟨heq, hclosed⟩ := hsame hunchanged
        refine ⟨heq, List.forall_mem_cons.mpr ⟨fun hon d hd => ?_, hclosed⟩⟩
        rw [← isEnabled_iff]
        by_contra hnot
        refine hkeep ⟨hon, List.any_eq_true.mpr ⟨d, hd, ?_⟩⟩
        simpa using hnot

end Pass

section Loop

variable {modules : List Module} {enabled : Dict Text Bool}

theorem withEnabled_withEnabled (enabled' : Dict Text Bool) :
    withEnabled (withEnabled modules enabled) enabled' = withEnabled modules enabled' := by
  simp only [withEnabled, List.map_map, Function.comp_def]

theorem configs_withEnabled : configs (withEnabled modules enabled) = configs modules := by
  simp only [configs, withEnabled, List.map_map, Function.comp_def]

/-- What the loop leaves: the modules with the entries of the last map, whose enabled set is
    reached from the first by taking modules out and is closed. -/
theorem normalizeLoop_spec {next : Text → List Text} {fuel : Nat} {result : List Module}
    (hnd : (configs modules).Nodup) (hagrees : Agrees modules enabled)
    (hnext : ∀ m ∈ modules, next m.config = m.depends)
    (hon : ∀ c ∈ onEntries enabled, c ∈ configs modules)
    (h : normalizeLoop fuel modules enabled = some result) :
    ∃ enabled', result = withEnabled modules enabled' ∧
      Relation.ReflTransGen (Shrink next) (onEntries enabled) (onEntries enabled') ∧
      Closed next (onEntries enabled') := by
  induction fuel generalizing modules enabled with
  | zero => cases h
  | succ fuel ih =>
      obtain ⟨hmodules, hagrees'⟩ := normalizePass_modules hnd hagrees
      obtain ⟨hshrinks, hsame⟩ := normalizePass_shrinks hnd hagrees hnext
      unfold normalizeLoop at h
      dsimp only at h
      split at h
      · have hconfigs : configs (normalizePass modules enabled).1 = configs modules := by
          rw [hmodules, configs_withEnabled]
        have hnext' : ∀ e ∈ (normalizePass modules enabled).1, next e.config = e.depends := by
          intro e he
          rw [hmodules, withEnabled] at he
          obtain ⟨m, hm, rfl⟩ := List.mem_map.mp he
          exact hnext m hm
        have hon' : ∀ c ∈ onEntries (normalizePass modules enabled).2.1,
            c ∈ configs (normalizePass modules enabled).1 := by
          intro c hc
          rw [hconfigs]
          exact hon c (subset_of_shrinks hshrinks hc)
        obtain ⟨enabled', hresult, hshrinks', hclosed⟩ := ih (hconfigs ▸ hnd) hagrees' hnext' hon' h
        refine ⟨enabled', ?_, hshrinks.trans hshrinks', hclosed⟩
        rw [hresult, hmodules, withEnabled_withEnabled]
      · rename_i hunchanged
        obtain rfl := Option.some.inj h
        obtain ⟨heq, hclosed⟩ := hsame (Bool.not_eq_true _ ▸ hunchanged)
        refine ⟨_, hmodules, hshrinks, fun c hc d hd => ?_⟩
        rw [heq] at hc ⊢
        obtain ⟨m, hm, rfl⟩ := List.mem_map.mp (hon c hc)
        rw [hnext m hm] at hd
        refine hclosed m hm ?_ d hd
        exact Option.some.inj ((hagrees m hm).symm.trans hc)

end Loop

section Result

variable {modules : List Module}

/-- The modules that stay enabled: those that were enabled with all their transitive
    dependencies. -/
def kept (modules : List Module) : Set Text := interior (dependsOn modules) (enabledSet modules)

theorem enabledSet_withEnabled {enabled : Dict Text Bool} :
    enabledSet (withEnabled modules enabled) = {c ∈ onEntries enabled | c ∈ configs modules} := by
  ext c
  constructor
  · rintro ⟨e, he, rfl, hon⟩
    obtain ⟨m, hm, rfl⟩ := List.mem_map.mp he
    exact ⟨isEnabled_iff.mp hon, List.mem_map.mpr ⟨m, hm, rfl⟩⟩
  · rintro ⟨hon, hc⟩
    obtain ⟨m, hm, rfl⟩ := List.mem_map.mp hc
    exact ⟨_, List.mem_map_of_mem hm, rfl, isEnabled_iff.mpr hon⟩

theorem enabledSet_subset {c : Text} (hc : c ∈ enabledSet modules) : c ∈ configs modules := by
  obtain ⟨m, hm, rfl, _⟩ := hc
  exact mem_configs hm

/-- `normalize_dependencies` keeps the modules and their order, and leaves enabled what
    `kept` says. -/
theorem normalizeDependencies_spec (hnd : (configs modules).Nodup) :
    ∃ enabled, normalizeDependencies modules = withEnabled modules enabled ∧
      onEntries enabled = kept modules := by
  have hloop : normalizeLoop (enabledCount modules + 1) modules (enabledMap modules) =
      some (normalizeDependencies modules) := (Option.some_get _).symm
  have hon : ∀ c ∈ onEntries (enabledMap modules), c ∈ configs modules := by
    rw [onEntries_enabledMap hnd]
    exact fun c hc => enabledSet_subset hc
  obtain ⟨enabled, hresult, hshrinks, hclosed⟩ :=
    normalizeLoop_spec hnd (agrees_enabledMap hnd) (fun m hm => dependsOn_eq hnd hm) hon hloop
  rw [onEntries_enabledMap hnd] at hshrinks
  exact ⟨enabled, hresult, eq_interior_of_shrinks hshrinks hclosed⟩

theorem configs_normalizeDependencies (hnd : (configs modules).Nodup) :
    configs (normalizeDependencies modules) = configs modules := by
  obtain ⟨enabled, hresult, _⟩ := normalizeDependencies_spec hnd
  rw [hresult, configs_withEnabled]

theorem enabledSet_normalizeDependencies (hnd : (configs modules).Nodup) :
    enabledSet (normalizeDependencies modules) = kept modules := by
  obtain ⟨enabled, hresult, hkept⟩ := normalizeDependencies_spec hnd
  rw [hresult, enabledSet_withEnabled, hkept]
  ext c
  exact ⟨fun h => h.1, fun h => ⟨h, enabledSet_subset (interior_subset h)⟩⟩

/-- The flags of modules are determined by the set of the enabled ones. -/
theorem withEnabled_congr {enabled enabled' : Dict Text Bool}
    (h : onEntries enabled = onEntries enabled') :
    withEnabled modules enabled = withEnabled modules enabled' := by
  apply List.map_congr_left
  intro m _
  have hiff : isEnabled enabled m.config = true ↔ isEnabled enabled' m.config = true := by
    rw [isEnabled_iff, isEnabled_iff, h]
  rw [Bool.eq_iff_iff.mpr hiff]

theorem dependsOn_perm {modules' : List Module} (hnd : (configs modules).Nodup)
    (hperm : modules'.Perm modules) : dependsOn modules' = dependsOn modules := by
  have hnd' : (configs modules').Nodup := (hperm.map _).nodup_iff.mpr hnd
  funext c
  by_cases hc : c ∈ configs modules
  · obtain ⟨m, hm, rfl⟩ := List.mem_map.mp hc
    rw [dependsOn_eq hnd hm, dependsOn_eq hnd' (hperm.mem_iff.mpr hm)]
  · have hc' : c ∉ configs modules' := fun h => hc ((hperm.map _).mem_iff.mp h)
    rw [dependsOn_eq_nil hnd hc, dependsOn_eq_nil hnd' hc']

theorem enabledSet_perm {modules' : List Module} (hperm : modules'.Perm modules) :
    enabledSet modules' = enabledSet modules := by
  ext c
  constructor
  · rintro ⟨m, hm, hc⟩
    exact ⟨m, hperm.mem_iff.mp hm, hc⟩
  · rintro ⟨m, hm, hc⟩
    exact ⟨m, hperm.mem_iff.mpr hm, hc⟩

theorem kept_perm {modules' : List Module} (hnd : (configs modules).Nodup)
    (hperm : modules'.Perm modules) : kept modules' = kept modules := by
  rw [kept, dependsOn_perm hnd hperm, enabledSet_perm hperm]
  rfl

/-- The order of the modules does not matter. -/
theorem normalizeDependencies_perm {modules' : List Module} (hnd : (configs modules).Nodup)
    (hperm : modules'.Perm modules) :
    (normalizeDependencies modules').Perm (normalizeDependencies modules) := by
  have hnd' : (configs modules').Nodup := (hperm.map _).nodup_iff.mpr hnd
  obtain ⟨enabled, hresult, hkept⟩ := normalizeDependencies_spec hnd
  obtain ⟨enabled', hresult', hkept'⟩ := normalizeDependencies_spec hnd'
  have hsame : withEnabled modules' enabled' = withEnabled modules' enabled := by
    apply withEnabled_congr
    rw [hkept, hkept', kept_perm hnd hperm]
  rw [hresult, hresult', hsame]
  exact hperm.map _

/-- A second call changes nothing: the modules that are kept are closed. -/
theorem normalizeDependencies_idem (hnd : (configs modules).Nodup) :
    normalizeDependencies (normalizeDependencies modules) = normalizeDependencies modules := by
  have hset := enabledSet_normalizeDependencies hnd
  obtain ⟨enabled, hresult, hkept⟩ := normalizeDependencies_spec hnd
  have hnd' : (configs (withEnabled modules enabled)).Nodup := by
    rwa [configs_withEnabled]
  have hdepends : dependsOn (withEnabled modules enabled) = dependsOn modules := by
    simp only [dependsOn, dependencyMap, withEnabled, List.map_map, Function.comp_def]
  rw [hresult] at hset ⊢
  obtain ⟨enabled', hresult', hkept'⟩ := normalizeDependencies_spec hnd'
  rw [hresult', withEnabled_withEnabled]
  apply withEnabled_congr
  rw [hkept, hkept', kept, hset, hdepends]
  exact (closed_interior.subset_interior subset_rfl).antisymm' interior_subset

/-- The dependencies of a module that stays enabled stay enabled. -/
theorem mem_enabledSet_of_depends {m : Module} {d : Text} (hnd : (configs modules).Nodup)
    (hm : m ∈ normalizeDependencies modules) (hon : m.enabled = true) (hd : d ∈ m.depends) :
    d ∈ enabledSet (normalizeDependencies modules) := by
  have hset := enabledSet_normalizeDependencies hnd
  obtain ⟨enabled, hresult, hkept⟩ := normalizeDependencies_spec hnd
  rw [hset]
  have hmem : m.config ∈ kept modules := hset ▸ ⟨m, hm, rfl, hon⟩
  apply closed_interior m.config hmem
  rw [hresult] at hm
  obtain ⟨e, he, rfl⟩ := List.mem_map.mp hm
  rwa [dependsOn_eq hnd he]

/-- `normalize_dependencies` on modules with different configuration entries.  The loop ends,
    the modules stay the same but for `enabled`, and one is enabled afterwards if and only if
    it and all its transitive dependencies were enabled before.  So no enabled module has a
    disabled dependency, no larger part of the enabled modules has this property, the order of
    the modules does not matter, and a second call changes nothing. -/
theorem normalizeDependencies_greatest (hnd : (configs modules).Nodup) :
    let result := normalizeDependencies modules
    normalizeLoop (enabledCount modules + 1) modules (enabledMap modules) = some result ∧
      List.Forall₂ (fun m m' : Module => m' = { m with enabled := m'.enabled } ∧
        (m'.enabled = true ↔
          ∀ c, Reaches (dependsOn modules) m.config c → c ∈ enabledSet modules))
        modules result ∧
      (∀ m ∈ result, m.enabled = true → ∀ d ∈ m.depends, d ∈ enabledSet result) ∧
      (∀ T, Closed (dependsOn modules) T → T ⊆ enabledSet modules → T ⊆ enabledSet result) ∧
      (∀ modules' : List Module, modules'.Perm modules →
        (normalizeDependencies modules').Perm result) ∧
      normalizeDependencies result = result := by
  have hset := enabledSet_normalizeDependencies hnd
  obtain ⟨enabled, hresult, hkept⟩ := normalizeDependencies_spec hnd
  refine ⟨(Option.some_get _).symm, ?_,
    fun m hm hon d hd => mem_enabledSet_of_depends hnd hm hon hd, ?_,
    fun modules' hperm => normalizeDependencies_perm hnd hperm, normalizeDependencies_idem hnd⟩
  · -- the flag of each module is its entry in the last map
    rw [hresult, withEnabled, List.forall₂_map_right_iff, List.forall₂_same]
    intro m _
    refine ⟨rfl, ?_⟩
    show isEnabled enabled m.config = true ↔ m.config ∈ kept modules
    rw [isEnabled_iff, hkept]
  · intro T hclosed hT
    rw [hset]
    exact hclosed.subset_interior hT

/-- A module with the fields that the dependencies are about, the others being filled in. -/
def plainModule (name config : String) (depends : List String) (enabled : Bool) : Module :=
  { name := name.toList, id := "1".toList, config := config.toList, prompt := name.toList,
    default := "y".toList, idValue := 1, sources := ["a.c".toList],
    depends := depends.map String.toList, enabled := enabled, path := "a.module".toList }

/-- Three modules in a chain with the last dependency disabled: two passes turn off a module
    each. -/
def cascade : List Module :=
  [plainModule "c" "C" ["B"] true, plainModule "b" "B" ["A"] true, plainModule "a" "A" [] false]

theorem normalizeDependencies_greatest_cascade :
    (configs cascade).Nodup ∧
      (∀ m ∈ normalizeDependencies cascade, m.enabled = true →
        ∀ d ∈ m.depends, d ∈ enabledSet (normalizeDependencies cascade)) ∧
      (normalizeDependencies cascade).map (·.enabled) = [false, false, false] := by
  have hnd : (configs cascade).Nodup := by decide
  exact ⟨hnd, (normalizeDependencies_greatest hnd).2.2.1, by decide⟩

end Result

end Config
end AppCore
