/-
  AppCore.Config.Acceptance

  Which sets of manifests the two tools accept.  The pass `DECLARE` with the check of the
  dependencies accepts exactly the strict ones of the sets `load_modules` accepts, and both
  derive the same numbers, sources and dependencies.
-/

import AppCore.Config.Readers

namespace AppCore
namespace Config

open CmakeList Checks

/-! ## What the pass `DECLARE` accepts -/

/-- The values that are declared once. -/
structure Globals.Distinct (g : Globals) : Prop where
  ids : g.ids.Nodup
  names : g.names.Nodup
  configs : g.configs.Nodup

section Declare

variable {isFile : Text → Bool} {g g' : Globals} {r : Reading} {m : Manifest}

theorem nodup_concat_iff {α : Type} {l : List α} {a : α} :
    (l ++ [a]).Nodup ↔ l.Nodup ∧ a ∉ l := by
  rw [List.nodup_append_comm]
  exact List.nodup_cons.trans and_comm

theorem distinct_declare_iff : (g.declare r).Distinct ↔
    g.Distinct ∧ r.idValue ∉ g.ids ∧ upper r.name ∉ g.names ∧ r.config ∉ g.configs := by
  constructor
  · rintro ⟨hids, hnames, hconfigs⟩
    obtain ⟨hids, hid⟩ := nodup_concat_iff.mp hids
    obtain ⟨hnames, hname⟩ := nodup_concat_iff.mp hnames
    obtain ⟨hconfigs, hconfig⟩ := nodup_concat_iff.mp hconfigs
    exact ⟨⟨hids, hnames, hconfigs⟩, hid, hname, hconfig⟩
  · rintro ⟨⟨hids, hnames, hconfigs⟩, hid, hname, hconfig⟩
    exact ⟨nodup_concat_iff.mpr ⟨hids, hid⟩, nodup_concat_iff.mpr ⟨hnames, hname⟩,
      nodup_concat_iff.mpr ⟨hconfigs, hconfig⟩⟩

theorem Globals.Distinct.of_foldl {readings : List Reading}
    (h : (readings.foldl Globals.declare g).Distinct) : g.Distinct := by
  induction readings generalizing g with
  | nil => exact h
  | cons r rest ih => exact (distinct_declare_iff.mp (ih h)).1

theorem declareManifest_eq_ok (hg : g.Distinct) : declareManifest isFile g m = .ok g' ↔
    ∃ r, readManifest isFile m = .ok r ∧ g' = g.declare r ∧ g'.Distinct := by
  unfold declareManifest
  simp only [bind_eq_ok, exists_const, check_eq_ok]
  constructor
  · rintro ⟨r, hread, hid, hname, hconfig, heq⟩
    obtain rfl := Except.ok.inj heq
    exact ⟨r, hread, rfl, distinct_declare_iff.mpr ⟨hg, hid, hname, hconfig⟩⟩
  · rintro ⟨r, hread, rfl, hdistinct⟩
    obtain ⟨_, hid, hname, hconfig⟩ := distinct_declare_iff.mp hdistinct
    exact ⟨r, hread, hid, hname, hconfig, rfl⟩

/-- The loop declares all manifests, if their values stay different. -/
theorem declareEach_eq_ok {manifests : List Manifest} (hg : g.Distinct) :
    declareEach isFile manifests g = .ok g' ↔
      ∃ readings, g' = readings.foldl Globals.declare g ∧
        List.Forall₂ (fun m r => readManifest isFile m = .ok r) manifests readings ∧
        g'.Distinct := by
  induction manifests generalizing g with
  | nil =>
      constructor
      · intro h
        obtain rfl := Except.ok.inj h
        exact ⟨[], rfl, List.Forall₂.nil, hg⟩
      · rintro ⟨readings, rfl, hread, _⟩
        cases hread
        rfl
  | cons m rest ih =>
      simp only [declareEach, bind_eq_ok, declareManifest_eq_ok hg]
      constructor
      · rintro ⟨_, ⟨r, hread, rfl, hdistinct⟩, hrest⟩
        obtain ⟨readings, rfl, hreadings, hresult⟩ := (ih hdistinct).mp hrest
        exact ⟨r :: readings, rfl, List.Forall₂.cons hread hreadings, hresult⟩
      · rintro ⟨readings, rfl, hreadings, hresult⟩
        cases hreadings with
        | @cons _ r _ readings hread hrest =>
            have hdistinct : (g.declare r).Distinct := Globals.Distinct.of_foldl hresult
            exact ⟨g.declare r, ⟨r, hread, rfl, hdistinct⟩,
              (ih hdistinct).mpr ⟨readings, rfl, hrest, hresult⟩⟩

/-- The properties after the loop. -/
theorem foldl_declare {readings : List Reading} :
    (readings.foldl Globals.declare g).ids = g.ids ++ readings.map (·.idValue) ∧
      (readings.foldl Globals.declare g).names = g.names ++ readings.map (upper ·.name) ∧
      (readings.foldl Globals.declare g).configs = g.configs ++ readings.map (·.config) ∧
      (readings.foldl Globals.declare g).depends =
        readings.foldl (fun d r => d.insert r.config r.dependsProperty) g.depends := by
  induction readings generalizing g with
  | nil => simp
  | cons r rest ih =>
      obtain ⟨hids, hnames, hconfigs, hdepends⟩ := ih (g := g.declare r)
      rw [List.foldl_cons, hids, hnames, hconfigs, hdepends]
      simp [Globals.declare]

/-- The property of a declared entry. -/
theorem property_foldl_declare {readings : List Reading} {cache : Dict Text Text}
    (hnd : (readings.map (·.config)).Nodup) (hr : r ∈ readings) :
    (readings.foldl Globals.declare (Globals.start cache)).property r.config =
      r.dependsProperty := by
  have hdepends : (readings.foldl Globals.declare (Globals.start cache)).depends =
      Dict.ofList (readings.map fun r => (r.config, r.dependsProperty)) := by
    rw [foldl_declare.2.2.2, Dict.ofList, List.foldl_map]
    rfl
  have hkeys : ((readings.map fun r => (r.config, r.dependsProperty)).map (·.1)).Nodup := by
    rwa [List.map_map]
  rw [Globals.property, hdepends, Dict.ofList_eq_self hkeys,
    Dict.get?_eq_some_of_mem hkeys (List.mem_map_of_mem hr)]
  rfl

theorem declareModules_eq_ok {dir : FeatureDir} {cache : Dict Text Text} :
    declareModules dir cache = .ok g ↔
      dir.manifests ≠ [] ∧
      ∃ readings, g = readings.foldl Globals.declare (Globals.start cache) ∧
        List.Forall₂ (fun m r => readManifest dir.isFile m = .ok r) dir.manifests readings ∧
        g.Distinct ∧ Passes (validateModuleDependencies g.configs g.property) := by
  have hstart : (Globals.start cache).Distinct :=
    ⟨List.nodup_nil, List.nodup_nil, List.nodup_nil⟩
  unfold declareModules
  simp only [bind_eq_ok, exists_const, check_eq_ok, declareEach_eq_ok hstart, ifPasses_eq_ok]
  constructor
  · rintro ⟨hne, _, ⟨readings, rfl, hread, hdistinct⟩, rfl, hpasses⟩
    exact ⟨hne, readings, rfl, hread, hdistinct, hpasses⟩
  · rintro ⟨hne, readings, rfl, hread, hdistinct, hpasses⟩
    exact ⟨hne, _, ⟨readings, rfl, hread, hdistinct⟩, rfl, hpasses⟩

end Declare

/-! ## The two tools together -/

section Acceptance

variable {isFile : Text → Bool} {manifests : List Manifest} {readings : List Reading}
  {modules : List Module} {g : Globals} {dir : FeatureDir} {cache : Dict Text Text}

theorem readManifest_of_plain {m : Manifest} {r : Reading} (h : m.Plain) :
    readManifest isFile m = .ok r ↔
      (∀ l ∈ m.lines, l.field ∈ allowedFields) ∧ Reads isFile (cmakeFields m) r := by
  rw [readManifest_eq_ok]
  simp only [readFields_of_plain h.lines]
  constructor
  · rintro ⟨_, ⟨hknown, rfl⟩, hreads⟩
    exact ⟨hknown, hreads⟩
  · rintro ⟨hknown, hreads⟩
    exact ⟨_, ⟨hknown, rfl⟩, hreads⟩

/-- What CMake reads menuconfig reads. -/
theorem loads_of_readings (hplain : ∀ m ∈ manifests, m.Plain)
    (h : List.Forall₂ (fun m r => readManifest isFile m = .ok r) manifests readings) :
    (∀ m ∈ manifests, m.Strict) ∧
      ∃ modules, List.Forall₂ (Loads isFile) manifests modules ∧
        List.Forall₂ SameReading readings modules := by
  induction h with
  | nil => exact ⟨fun m hm => (List.not_mem_nil hm).elim, [], List.Forall₂.nil, List.Forall₂.nil⟩
  | @cons m r rest _ hread _ ih =>
      obtain ⟨hm, hrest⟩ := List.forall_mem_cons.mp hplain
      obtain ⟨hknown, hreads⟩ := (readManifest_of_plain hm).mp hread
      obtain ⟨hstrict, module, hloads, hsame⟩ := hreads.loads hm hknown
      obtain ⟨hstricts, modules, hloadsRest, hsameRest⟩ := ih hrest
      exact ⟨List.forall_mem_cons.mpr ⟨hstrict, hstricts⟩, module :: modules,
        List.Forall₂.cons hloads hloadsRest, List.Forall₂.cons hsame hsameRest⟩

/-- What menuconfig loads from strict manifests CMake reads. -/
theorem readings_of_loads (hplain : ∀ m ∈ manifests, m.Plain)
    (hstrict : ∀ m ∈ manifests, m.Strict)
    (h : List.Forall₂ (Loads isFile) manifests modules) :
    ∃ readings, List.Forall₂ (fun m r => readManifest isFile m = .ok r) manifests readings ∧
      List.Forall₂ SameReading readings modules := by
  induction h with
  | nil => exact ⟨[], List.Forall₂.nil, List.Forall₂.nil⟩
  | @cons m module rest _ hloads _ ih =>
      obtain ⟨hm, hplainRest⟩ := List.forall_mem_cons.mp hplain
      obtain ⟨hs, hstrictRest⟩ := List.forall_mem_cons.mp hstrict
      obtain ⟨r, hreads, hsame⟩ := hloads.reads hm hs
      obtain ⟨readings, hreadings, hsameRest⟩ := ih hplainRest hstrictRest
      exact ⟨r :: readings,
        List.Forall₂.cons ((readManifest_of_plain hm).mpr ⟨hloads.known, hreads⟩) hreadings,
        List.Forall₂.cons hsame hsameRest⟩

theorem map_eq_of_forall₂ {α β γ : Type} {R : α → β → Prop} {f : α → γ} {f' : β → γ}
    {l : List α} {l' : List β} (h : List.Forall₂ R l l') (heq : ∀ a b, R a b → f a = f' b) :
    l.map f = l'.map f' := by
  induction h with
  | nil => rfl
  | cons hab _ ih => rw [List.map_cons, List.map_cons, heq _ _ hab, ih]

theorem exists_of_forall₂ {α β : Type} {R : α → β → Prop} {l : List α} {l' : List β} {b : β}
    (h : List.Forall₂ R l l') (hb : b ∈ l') : ∃ a ∈ l, R a b := by
  induction h with
  | nil => cases hb
  | @cons a _ l _ hab _ ih =>
      rcases List.mem_cons.mp hb with rfl | hb
      · exact ⟨a, List.mem_cons_self, hab⟩
      · obtain ⟨a', ha', hR⟩ := ih hb
        exact ⟨a', List.mem_cons_of_mem _ ha', hR⟩

/-- Nothing of a module name is lost in upper case. -/
theorem lower_upper {t : Text} (h : isModuleName t = true) : lower (upper t) = t := by
  have hchar : ∀ c ∈ t, fieldChar c = true := by
    cases t with
    | nil => exact fun c hc => (List.not_mem_nil hc).elim
    | cons d t =>
        obtain ⟨hd, ht⟩ := Bool.and_eq_true_iff.mp h
        refine List.forall_mem_cons.mpr ⟨?_, List.all_eq_true.mp ht⟩
        rw [fieldChar, hd]
        rfl
  rw [lower, upper, List.map_map]
  refine (List.map_congr_left fun c hc => ?_).trans (List.map_id t)
  exact forall_ascii (fun c => fieldChar c = true → (Char.toLower ∘ Char.toUpper) c = id c)
    (by decide) (lt_of_fieldChar (hchar c hc)) (hchar c hc)

/-- The values that CMake compares differ when those do that menuconfig compares. -/
theorem distinct_iff (hsame : List.Forall₂ SameReading readings modules)
    (hnames : ∀ module ∈ modules, isModuleName module.name = true) :
    (readings.foldl Globals.declare (Globals.start cache)).Distinct ↔ Distinct modules := by
  have hids : (readings.foldl Globals.declare (Globals.start cache)).ids =
      readings.map (·.idValue) := foldl_declare.1
  have hupper : (readings.foldl Globals.declare (Globals.start cache)).names =
      readings.map (upper ·.name) := foldl_declare.2.1
  have hconfigs : (readings.foldl Globals.declare (Globals.start cache)).configs =
      readings.map (·.config) := foldl_declare.2.2.1
  have hidsIff : (readings.map (·.idValue)).Nodup ↔ (modules.map (·.idValue)).Nodup := by
    have hcast : (readings.map (·.idValue)).map (fun n : Nat => (n : Int)) =
        modules.map (·.idValue) := by
      rw [List.map_map]
      exact map_eq_of_forall₂ hsame fun _ _ h => h.idValue
    have hinj : Function.Injective fun n : Nat => (n : Int) := fun _ _ h => Int.ofNat.inj h
    rw [← hcast, List.nodup_map_iff hinj]
  have hconfigsEq : readings.map (·.config) = configs modules :=
    map_eq_of_forall₂ hsame fun _ _ h => h.config
  have hnamesIff : (readings.map (upper ·.name)).Nodup ↔ (modules.map (·.name)).Nodup := by
    have hnamesEq : readings.map (upper ·.name) = (modules.map (·.name)).map upper := by
      rw [List.map_map]
      exact map_eq_of_forall₂ hsame fun _ _ h => congrArg upper h.name
    rw [hnamesEq]
    refine ⟨List.Nodup.of_map upper, fun h => h.map_on ?_⟩
    intro x hx y hy hxy
    obtain ⟨a, ha, rfl⟩ := List.mem_map.mp hx
    obtain ⟨b, hb, rfl⟩ := List.mem_map.mp hy
    rw [← lower_upper (hnames a ha), hxy, lower_upper (hnames b hb)]
  constructor
  · rintro ⟨h1, h2, h3⟩
    rw [hids] at h1
    rw [hupper] at h2
    rw [hconfigs] at h3
    exact ⟨hidsIff.mp h1, hconfigsEq ▸ h3, hnamesIff.mp h2⟩
  · rintro ⟨h1, h2, h3⟩
    refine ⟨?_, ?_, ?_⟩
    · rw [hids]
      exact hidsIff.mpr h1
    · rw [hupper]
      exact hnamesIff.mpr h3
    · rw [hconfigs]
      exact hconfigsEq ▸ h2

/-- The dependencies CMake looks at are those of the modules. -/
theorem cmakeDependencies_property (hsame : List.Forall₂ SameReading readings modules)
    (hnd : (configs modules).Nodup) {module : Module} (hm : module ∈ modules) :
    cmakeDependencies ((readings.foldl Globals.declare (Globals.start cache)).property
      module.config) = module.depends := by
  have hconfigsEq : readings.map (·.config) = configs modules :=
    map_eq_of_forall₂ hsame fun _ _ h => h.config
  obtain ⟨r, hr, hrm⟩ := exists_of_forall₂ hsame hm
  rw [← hrm.config, property_foldl_declare (hconfigsEq ▸ hnd) hr, hrm.depends]

/-- The two checks of the dependencies, on the same modules. -/
theorem passes_iff (hsame : List.Forall₂ SameReading readings modules)
    (hnd : (configs modules).Nodup) :
    let g := readings.foldl Globals.declare (Globals.start cache)
    Passes (validateModuleDependencies g.configs g.property) ↔
      Passes (validateDependencyGraph modules) := by
  intro g
  have hconfigs : g.configs = configs modules := by
    show (readings.foldl Globals.declare (Globals.start cache)).configs = _
    rw [foldl_declare.2.2.1]
    exact map_eq_of_forall₂ hsame fun _ _ h => h.config
  rw [(validateDependencyGraph_iff hnd).2, validateModuleDependencies_iff.2, hconfigs]
  apply wellFounded_congr
  intro c hc
  obtain ⟨module, hm, rfl⟩ := List.mem_map.mp hc
  rw [cmakeDependencies_property hsame hnd hm, dependsOn_eq hnd hm]

theorem names_of_loads (h : List.Forall₂ (Loads isFile) manifests modules) :
    ∀ module ∈ modules, isModuleName module.name = true := by
  induction h with
  | nil => exact fun module hm => (List.not_mem_nil hm).elim
  | cons hloads _ ih =>
      refine List.forall_mem_cons.mpr ⟨?_, ih⟩
      rw [hloads.eq]
      exact hloads.name

/-- A set that CMake accepts is strict, menuconfig accepts it, and both read the same. -/
theorem loadModules_of_declareModules (hplain : ∀ m ∈ dir.manifests, m.Plain)
    (h : declareModules dir cache = .ok g) :
    (∀ m ∈ dir.manifests, m.Strict) ∧
      ∃ readings modules, g = readings.foldl Globals.declare (Globals.start cache) ∧
        List.Forall₂ (fun m r => readManifest dir.isFile m = .ok r) dir.manifests readings ∧
        List.Forall₂ SameReading readings modules ∧ loadModules dir = .ok modules := by
  obtain ⟨hne, readings, rfl, hread, hdistinct, hpasses⟩ := declareModules_eq_ok.mp h
  obtain ⟨hstrict, modules, hloads, hsame⟩ := loads_of_readings hplain hread
  have hdistinct' : Distinct modules := (distinct_iff hsame (names_of_loads hloads)).mp hdistinct
  refine ⟨hstrict, readings, modules, rfl, hread, hsame,
    loadModules_eq_ok.mpr
      ⟨hloads, hdistinct', ?_, (passes_iff hsame hdistinct'.configs).mp hpasses⟩⟩
  rintro rfl
  exact hne (List.forall₂_nil_right_iff.mp hloads)

/-- CMake accepts a set of strict manifests that menuconfig accepts. -/
theorem declareModules_of_loadModules (hplain : ∀ m ∈ dir.manifests, m.Plain)
    (hstrict : ∀ m ∈ dir.manifests, m.Strict) (h : loadModules dir = .ok modules) :
    ∃ g, declareModules dir cache = .ok g := by
  obtain ⟨hloads, hdistinct, hne, hpasses⟩ := loadModules_eq_ok.mp h
  obtain ⟨readings, hread, hsame⟩ := readings_of_loads hplain hstrict hloads
  refine ⟨_, declareModules_eq_ok.mpr ⟨?_, readings, rfl, hread,
    (distinct_iff hsame (names_of_loads hloads)).mpr hdistinct,
    (passes_iff hsame hdistinct.configs).mpr hpasses⟩⟩
  intro hnil
  rw [hnil] at hloads
  exact hne (List.forall₂_nil_left_iff.mp hloads)

/-- The two readers, on manifests whose lines and items CMake's lists keep whole and whose only
    spaces are blanks and tabs.  The pass `DECLARE` with the check of the dependencies accepts
    exactly those sets of strict manifests that `load_modules` accepts, and from a set that both
    accept they read the same names, entries, numbers, sources and dependencies. -/
theorem declareModules_iff_loadModules (hplain : ∀ m ∈ dir.manifests, m.Plain)
    (cache : Dict Text Text) :
    ((∃ g, declareModules dir cache = .ok g) ↔
        (∃ modules, loadModules dir = .ok modules) ∧ ∀ m ∈ dir.manifests, m.Strict) ∧
      ∀ g modules, declareModules dir cache = .ok g → loadModules dir = .ok modules →
        ∃ readings,
          List.Forall₂ (fun m r => readManifest dir.isFile m = .ok r) dir.manifests readings ∧
          List.Forall₂ SameReading readings modules ∧ g.configs = configs modules ∧
          ∀ module ∈ modules, cmakeDependencies (g.property module.config) = module.depends := by
  refine ⟨⟨?_, ?_⟩, ?_⟩
  · rintro ⟨g, hg⟩
    obtain ⟨hstrict, _, modules, _, _, _, hloads⟩ := loadModules_of_declareModules hplain hg
    exact ⟨⟨modules, hloads⟩, hstrict⟩
  · rintro ⟨⟨modules, hloads⟩, hstrict⟩
    exact declareModules_of_loadModules hplain hstrict hloads
  · intro g modules hg hloads
    obtain ⟨_, readings, modules', rfl, hread, hsame, hloads'⟩ :=
      loadModules_of_declareModules hplain hg
    -- `load_modules` has one result
    obtain rfl : modules' = modules := Except.ok.inj (hloads'.symm.trans hloads)
    have hnd : (configs modules').Nodup := (loadModules_eq_ok.mp hloads).2.1.configs
    refine ⟨readings, hread, hsame, ?_, fun module hm => cmakeDependencies_property hsame hnd hm⟩
    rw [foldl_declare.2.2.1]
    exact map_eq_of_forall₂ hsame fun _ _ h => h.config

/-! ## Where the tools differ -/

/-- The value of a line. -/
abbrev Value := {v : Text // v.all textChar = true}

/-- A manifest with some of its values. -/
def sample (name id config prompt sources depends : Value) : Manifest where
  path := name.1 ++ ".module".toList
  lines := [
    ⟨"name".toList, name.1, by decide, by decide, name.2⟩,
    ⟨"id".toList, id.1, by decide, by decide, id.2⟩,
    ⟨"config".toList, config.1, by decide, by decide, config.2⟩,
    ⟨"default".toList, "y".toList, by decide, by decide, by decide⟩,
    ⟨"sources".toList, sources.1, by decide, by decide, sources.2⟩,
    ⟨"prompt".toList, prompt.1, by decide, by decide, prompt.2⟩,
    ⟨"depends".toList, depends.1, by decide, by decide, depends.2⟩]
  distinct := by
    show (["name", "id", "config", "default", "sources", "prompt", "depends"].map
      String.toList).Nodup
    decide

/-- A directory with one manifest, in which every path is a file. -/
def sampleDir (m : Manifest) : FeatureDir where
  path := "app/features".toList
  manifests := [m]
  isFile := fun _ => true

/-- The verdicts of `load_modules` and of the pass `DECLARE`. -/
def verdicts (m : Manifest) : Bool × Bool :=
  ((loadModules (sampleDir m)).isOk, (declareModules (sampleDir m) []).isOk)

/-- A manifest that both tools accept. -/
def plainSample : Manifest :=
  sample ⟨"first".toList, by decide⟩ ⟨"0x1F".toList, by decide⟩ ⟨"FIRST".toList, by decide⟩
    ⟨"First".toList, by decide⟩ ⟨"a.c, b.c".toList, by decide⟩ ⟨" ".toList, by decide⟩

theorem declareModules_iff_loadModules_sample :
    ((∃ g, declareModules (sampleDir plainSample) [] = .ok g) ↔
        (∃ modules, loadModules (sampleDir plainSample) = .ok modules) ∧
          ∀ m ∈ (sampleDir plainSample).manifests, m.Strict) ∧
      verdicts plainSample = (true, true) := by
  have hplain : ∀ m ∈ (sampleDir plainSample).manifests, m.Plain := by
    intro m hm
    obtain rfl := List.mem_singleton.mp hm
    have hspaces : (plainSample.lines.all fun l =>
        l.value.all fun c => !pySpace c || c = ' ' || c = '\t') = true := by decide
    refine ⟨by decide, fun l hl c hc hspace => ?_, by decide⟩
    have hchar := List.all_eq_true.mp (List.all_eq_true.mp hspaces l hl) c hc
    simpa [hspace] using hchar
  exact ⟨(declareModules_iff_loadModules hplain []).1, by decide⟩

/-- Manifests of plain lines on which the verdicts differ.  A number in binary, a leading blank,
    an empty item and a tilde are for menuconfig only; a semicolon and a backslash at the end of
    a line hide dependencies from CMake that menuconfig does not know. -/
theorem readers_disagree :
    let first : Value := ⟨"first".toList, by decide⟩
    let one : Value := ⟨"1".toList, by decide⟩
    let config : Value := ⟨"FIRST".toList, by decide⟩
    let prompt : Value := ⟨"First".toList, by decide⟩
    let source : Value := ⟨"a.c".toList, by decide⟩
    let empty : Value := ⟨[], by decide⟩
    [sample first ⟨"0b1".toList, by decide⟩ config prompt source empty,
        sample ⟨" first".toList, by decide⟩ one config prompt source empty,
        sample first one config prompt ⟨"a.c,".toList, by decide⟩ empty,
        sample first one config prompt ⟨"~a.c".toList, by decide⟩ empty].map verdicts =
      [(true, false), (true, false), (true, false), (true, false)] ∧
    [sample first one config prompt source ⟨";".toList, by decide⟩,
        sample first one config ⟨"First\\".toList, by decide⟩ source
          ⟨"MISSING".toList, by decide⟩].map verdicts =
      [(false, true), (false, true)] := by
  decide

end Acceptance

end Config
end AppCore
