/-
  AppCore.Config.Build

  From the saved file to the build: `load_app_config` of `tools/ParseConfig.cmake`, and the
  pass `BUILD`.  CMake sets the entries as menuconfig has saved them.  The pass `BUILD` then
  finds all dependencies enabled, but it also looks up the empty items of a dependency list,
  which both checks of the dependencies skip.
-/

import AppCore.Config.Acceptance
import AppCore.Config.SavedConfig

namespace AppCore
namespace Config

open CmakeList Checks

/-! ## `load_app_config` -/

section Load

variable {m : Module} {modules : List Module} {cache : Dict Text Text}

end Load

/-! ## What CMake reads of a manifest that both accept -/

section Accepted

variable {isFile : Text → Bool} {m : Manifest} {fields : Dict Text Text} {r : Reading}
  {module : Module}

/-- Every variable comes from an element of the list of lines. -/
theorem exists_element {path : Text} {lines : List Text} {acc : Dict Text Text}
    (h : readFields path lines acc = .ok fields) {f v : Text} (hv : (f, v) ∈ fields) :
    (f, v) ∈ acc ∨ ∃ e ∈ lines, splitLine (cmakeStrip e) = some (f, v) := by
  induction lines generalizing acc with
  | nil =>
      obtain rfl := Except.ok.inj h
      exact Or.inl hv
  | cons e rest ih =>
      rw [readFields] at h
      dsimp only at h
      split at h
      · rcases ih h with hacc | ⟨e', he', hsplit⟩
        · exact Or.inl hacc
        · exact Or.inr ⟨e', List.mem_cons_of_mem _ he', hsplit⟩
      · simp only [bind_eq_ok, orError_eq_ok, check_eq_ok, exists_const, Prod.exists] at h
        obtain ⟨name, value, hsplit, _, hnew, hrest⟩ := h
        rw [Dict.insert_of_notMem (Dict.get?_eq_none_iff.mp hnew)] at hrest
        rcases ih hrest with hacc | ⟨e', he', hsplit'⟩
        · rcases List.mem_append.mp hacc with hacc | hacc
          · exact Or.inl hacc
          · obtain ⟨rfl, rfl⟩ := Prod.mk.inj (List.mem_singleton.mp hacc)
            exact Or.inr ⟨e, List.mem_cons_self, hsplit⟩
        · exact Or.inr ⟨e', List.mem_cons_of_mem _ he', hsplit'⟩

theorem notMem_equals (l : Line) : '=' ∉ l.field :=
  fun hmem => (plain_of_fieldChar (l.fieldChar_of_mem _ hmem)).2.2.1 rfl

/-- Only the value of a line can break it. -/
theorem whole_text {l : Line} (hopen : '[' ∉ l.value) (hclose : ']' ∉ l.value)
    (hback : '\\' ∉ l.value) : Whole l.text := by
  have hchars : ∀ c, c ≠ '=' → fieldChar c = false → c ∉ l.value → c ∉ l.text := by
    intro c hne hc hvalue hmem
    rw [Line.text, List.mem_append, List.mem_cons] at hmem
    rcases hmem with hmem | hmem | hmem
    · rw [l.fieldChar_of_mem c hmem] at hc
      cases hc
    · exact hne hmem
    · exact hvalue hmem
  exact whole_of_notMem (hchars _ (by decide) (by decide) hopen)
    (hchars _ (by decide) (by decide) hclose) (hchars _ (by decide) (by decide) hback)

theorem value_ne_nil_of_not_whole {l : Line} (h : ¬ Whole l.text) : l.value ≠ [] := by
  intro hnil
  apply h
  apply whole_text <;> rw [hnil] <;> exact List.not_mem_nil

/-- A variable has the value of its line, or the line was joined with others, and then the
    value contains a semicolon. -/
theorem exists_line {f v : Text} (h : readFields m.path (manifestLines m) [] = .ok fields)
    (hv : (f, v) ∈ fields) :
    ∃ l ∈ m.lines, l.field = f ∧ (v = cmakeTrim l.value ∨ (¬ Whole l.text ∧ ';' ∈ v)) := by
  obtain hacc | ⟨e, he, hsplit⟩ := exists_element h hv
  · cases hacc
  rw [manifestLines, stringsFrom_text] at he
  rcases (lineOrJoined_of_mem he).cases with he | ⟨x, hx, hwhole, s, hs, rfl⟩
  · obtain ⟨l, hl, rfl⟩ := List.mem_map.mp he
    rw [cmakeStrip_text] at hsplit
    obtain ⟨hf, hval⟩ := splitLine_eq_some (notMem_equals l) hsplit
    exact ⟨l, hl, hf.symm, Or.inl hval⟩
  · obtain ⟨l, hl, rfl⟩ := List.mem_map.mp hx
    refine ⟨l, hl, ?_⟩
    -- the field and the `=` are not touched
    obtain ⟨c, t, hfield⟩ := List.exists_cons_of_ne_nil l.field_ne
    have hc : cmakeSpace c = false :=
      (plain_of_fieldChar (l.fieldChar_of_mem c (hfield ▸ List.mem_cons_self))).1
    have htext : l.text.dropLast ++ s = l.field ++ '=' :: (l.value.dropLast ++ s) := by
      rw [Line.text, List.dropLast_append_of_ne_nil (List.cons_ne_nil _ _),
        List.dropLast_cons_of_ne_nil (value_ne_nil_of_not_whole hwhole), List.append_assoc,
        List.cons_append]
    have hstrip : cmakeStrip (l.text.dropLast ++ s) =
        l.field ++ '=' :: cmakeTrim (l.value.dropLast ++ s) := by
      show stripBy cmakeSpace _ = _
      rw [htext, stripBy_eq_dropWhile, rdropWhile_append (by decide), hfield, List.cons_append,
        List.dropWhile_cons_of_neg (by simp [hc])]
      rfl
    rw [hstrip] at hsplit
    obtain ⟨hf, hval⟩ := splitLine_eq_some (notMem_equals l) hsplit
    refine ⟨hf.symm, Or.inr ⟨hwhole, ?_⟩⟩
    have hsemi : ';' ∈ l.value.dropLast ++ s := List.mem_append_right _ hs
    rw [hval]
    exact List.dropWhile_subset _ (stripBy_eq_dropWhile ▸ mem_stripBy hsemi (by decide))

theorem raw_eq_value {l : Line} (hl : l ∈ m.lines) {f : String} (hf : l.field = f.toList) :
    m.raw f = l.value := by
  have hkeys : ((m.lines.map fun l => (l.field, l.value)).map (·.1)).Nodup := by
    rw [List.map_map]
    exact m.distinct
  rw [Manifest.raw, Manifest.value?, ← hf,
    Dict.get?_eq_some_of_mem hkeys (List.mem_map_of_mem (f := fun l => (l.field, l.value)) hl)]
  rfl

/-- Python strips a text with a name in it down to the name, as CMake does. -/
theorem pyStrip_of_cmakeStrip {t x : Text} (h : cmakeStrip t = x) (hx : isConfigName x = true) :
    pyStrip t = x := by
  have hspace : ∀ c ∈ x, pySpace c = false := fun c hc =>
    forall_ascii (fun c => configChar c = true → pySpace c = false) (by decide)
      (lt_of_configChar (configChar_of_mem hx hc)) (configChar_of_mem hx hc)
  have hself : pyStrip x = x := by
    apply stripBy_eq_self
    · exact fun c hc => hspace c (List.mem_of_head? hc)
    · exact fun c hc => hspace c (List.mem_of_getLast? hc)
  calc pyStrip t = pyStrip (cmakeStrip t) := (stripBy_stripBy fun c => pySpace_of_cmakeSpace).symm
    _ = x := by rw [h, hself]

/-- Both tools read the same configuration entry. -/
theorem config_eq (h : readManifest isFile m = .ok r) (hloads : Loads isFile m module) :
    r.config = module.config := by
  obtain ⟨fields, hfields, hreads⟩ := readManifest_eq_ok.mp h
  have hr : r.config = field fields "config" := congrArg Reading.config hreads.eq
  have hmodule : module.config = pyStrip (m.raw "config") := by
    rw [← field_parserFields]
    exact congrArg Module.config hloads.eq
  obtain ⟨v, hv⟩ := Option.ne_none_iff_exists'.mp (hreads.complete "config".toList (by decide))
  have hvalue : field fields "config" = v := by
    rw [field, hv]
    rfl
  have hname : isConfigName v = true := hvalue ▸ hreads.config
  obtain ⟨l, hl, hf, htrim | ⟨_, hsemi⟩⟩ := exists_line hfields (Dict.mem_of_get?_eq_some hv)
  · rw [hr, hvalue, hmodule, raw_eq_value hl hf]
    refine (pyStrip_of_cmakeStrip ?_ hname).symm
    rw [htrim] at hname ⊢
    exact stripBy_eq_rdropWhile (head_of_isConfigName hname)
  · -- a name has no semicolon
    exact absurd hsemi (notMem_of_isConfigName hname (by decide))

end Accepted

/-! ## The pass `BUILD` -/

section Build

variable {dir : FeatureDir} {isFile : Text → Bool} {manifests : List Manifest} {m : Manifest}
  {modules assigned : List Module} {readings : List Reading} {g : Globals}
  {cache : Dict Text Text} {r : Reading} {module : Module}

/-- A reading and a module of one manifest. -/
def Paired (isFile : Text → Bool) (r : Reading) (module : Module) : Prop :=
  ∃ m : Manifest, readManifest isFile m = .ok r ∧ Loads isFile m module

theorem paired (hread : List.Forall₂ (fun m r => readManifest isFile m = .ok r) manifests readings)
    (hloads : List.Forall₂ (Loads isFile) manifests modules) :
    List.Forall₂ (Paired isFile) readings modules := by
  induction hread generalizing modules with
  | nil =>
      cases hloads
      exact List.Forall₂.nil
  | @cons m r _ _ hr _ ih =>
      cases hloads with
      | cons hl hrest => exact List.Forall₂.cons ⟨m, hr, hl⟩ (ih hrest)

theorem configs_of_loads (h : List.Forall₂ (Loads isFile) manifests modules) :
    ∀ module ∈ modules, isConfigName module.config = true := by
  induction h with
  | nil => exact fun module hm => (List.not_mem_nil hm).elim
  | cons hloads _ ih =>
      refine List.forall_mem_cons.mpr ⟨?_, ih⟩
      rw [hloads.eq]
      exact hloads.config

/-- What is known when both tools have accepted the manifests: the readings and the modules
    belong together, all dependencies that either tool has found are entries, and the property
    of an entry is the text CMake has read. -/
structure Accepted (dir : FeatureDir) (modules : List Module) (readings : List Reading)
    (g : Globals) : Prop where
  read : List.Forall₂ (fun m r => readManifest dir.isFile m = .ok r) dir.manifests readings
  pairs : List.Forall₂ (Paired dir.isFile) readings modules
  configs : g.configs = configs modules
  nodup : (Config.configs modules).Nodup
  names : ∀ module ∈ modules, isConfigName module.config = true
  known : ∀ module ∈ modules, ∀ d ∈ module.depends, d ∈ Config.configs modules
  cmakeKnown : ∀ c ∈ g.configs, ∀ d ∈ cmakeDependencies (g.property c), d ∈ g.configs
  property : ∀ r ∈ readings, g.property r.config = r.dependsProperty

theorem accepted (hload : loadModules dir = .ok modules)
    (hdeclare : declareModules dir cache = .ok g) :
    ∃ readings, g = readings.foldl Globals.declare (Globals.start cache) ∧
      Accepted dir modules readings g := by
  obtain ⟨hloads, hdistinct, _, hpasses⟩ := loadModules_eq_ok.mp hload
  obtain ⟨_, readings, rfl, hread, hgdistinct, hcmakePasses⟩ := declareModules_eq_ok.mp hdeclare
  have hpairs := paired hread hloads
  have hreadingConfigs : (readings.foldl Globals.declare (Globals.start cache)).configs =
      readings.map (·.config) := foldl_declare.2.2.1
  have hconfigs : readings.map (·.config) = configs modules :=
    map_eq_of_forall₂ hpairs fun _ _ ⟨_, hr, hl⟩ => config_eq hr hl
  have hnd := hdistinct.configs
  have hknown := ((validateDependencyGraph_iff hnd).2.mp hpasses).1
  have hcmakeKnown := (validateModuleDependencies_iff.2.mp hcmakePasses).1
  refine ⟨readings, rfl, hread, hpairs, hreadingConfigs.trans hconfigs, hnd,
    configs_of_loads hloads, ?_, hcmakeKnown, ?_⟩
  · intro module hm d hd
    apply hknown module.config (mem_configs hm)
    rwa [dependsOn_eq hnd hm]
  · exact fun r hr => property_foldl_declare (hconfigs ▸ hnd) hr

end Build

end Config
end AppCore
