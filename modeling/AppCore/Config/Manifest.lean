/-
  AppCore.Config.Manifest

  Module manifests, and `load_modules` of `tools/menuconfig.py`, which reads them with
  `configparser`.
-/

import AppCore.Config.Menuconfig
import AppCore.Config.Integer
import AppCore.Lib.Checks

namespace AppCore
namespace Config

open Checks

/-- A character of a lower-case field name. -/
def fieldChar (c : Char) : Bool := c.isLower || c.isDigit || c = '_'

/-- A character of a line of text: no control character but the tab. -/
def textChar (c : Char) : Bool := c = '\t' || (0x20 ≤ c.toNat && c.toNat ≠ 0x7f)

/-- A line `field=value`. -/
structure Line where
  field : Text
  value : Text
  field_ne : field ≠ []
  field_lower : field.all fieldChar = true
  value_text : value.all textChar = true

/-- A manifest: the path of the file and its lines, which set different fields. -/
structure Manifest where
  path : Text
  lines : List Line
  distinct : (lines.map (·.field)).Nodup

/-- `app/features`, as both tools find it: the manifests in the order of their paths, and which
    paths, relative to the directory, are regular files. -/
structure FeatureDir where
  path : Text
  manifests : List Manifest
  isFile : Text → Bool

/-- The entry of a line in the file. -/
def Line.text (l : Line) : Text := l.field ++ '=' :: l.value

theorem Line.fieldChar_of_mem (l : Line) : ∀ c ∈ l.field, fieldChar c = true :=
  List.all_eq_true.mp l.field_lower

theorem Line.textChar_of_mem (l : Line) : ∀ c ∈ l.value, textChar c = true :=
  List.all_eq_true.mp l.value_text

/-- The value of a field, as it stands in the file. -/
def Manifest.value? (m : Manifest) (field : String) : Option Text :=
  Dict.get? (m.lines.map fun l => (l.field, l.value)) field.toList

/-- `ALLOWED_FIELDS`. -/
def allowedFields : List Text :=
  ["name", "id", "config", "prompt", "default", "sources", "depends"].map String.toList

/-- `REQUIRED_FIELDS`. -/
def requiredFields : List Text :=
  ["name", "id", "config", "prompt", "default", "sources"].map String.toList

/-- A list of texts as the messages show it. -/
def sortedText (l : List Text) : Text := ", ".toList.intercalate (l.insertionSort (· ≤ ·))

/-! ## `load_modules` -/

/-- `dict(parser["module"])`.  A field name has none of the delimiters `=` and `:`, a line that
    is not indented continues no other, and `configparser` strips the values. -/
def parserFields (m : Manifest) : Dict Text Text := m.lines.map fun l => (l.field, pyStrip l.value)

/-- The value of a field that is there. -/
def field (fields : Dict Text Text) (name : String) : Text := (fields.get? name.toList).getD []

/-- `parse_bool`. -/
def parseBool (value : Text) : Bool :=
  lower (pyStrip value) ∈ ["1", "on", "true", "y", "yes"].map String.toList

/-- The non-empty items of a comma list. -/
def pyItems (t : Text) : List Text := ((t.splitOn ',').map pyStrip).filter (· ≠ [])

/-- `os.path.isabs(source) or ".." in source.split(os.sep)`. -/
def pyUnsafe (source : Text) : Prop :=
  source.head? = some '/' ∨ "..".toList ∈ source.splitOn '/'

instance (source : Text) : Decidable (pyUnsafe source) := inferInstanceAs (Decidable (_ ∨ _))

/-- The body of the loop of `load_modules`.  `known_ids`, `known_configs` and `known_names` hold
    the values of the modules read so far. -/
def loadModule (isFile : Text → Bool) (modules : List Module) (m : Manifest) :
    Except Text Module := do
  let fields := parserFields m
  let unknown := (fields.map (·.1)).filter (· ∉ allowedFields)
  check (unknown = []) (m.path ++ " has unknown fields: ".toList ++ sortedText unknown)
  let missing := requiredFields.filter (· ∉ fields.map (·.1))
  check (missing = []) (m.path ++ " missing fields: ".toList ++ sortedText missing)
  check (isModuleName (field fields "name") = true)
    (m.path ++ " has invalid module name: ".toList ++ field fields "name")
  check (isConfigName (field fields "config") = true)
    (m.path ++ " has invalid config name: ".toList ++ field fields "config")
  check (lower (pyStrip (field fields "default")) ∈ ["y".toList, "n".toList])
    (m.path ++ " default must be y or n".toList)
  check (pyStrip (field fields "prompt") ≠ []) (m.path ++ " prompt must not be empty".toList)
  let moduleId ← orError (pyInt (field fields "id"))
    (m.path ++ " has invalid module id: ".toList ++ field fields "id")
  check (¬ (moduleId ≤ 0 ∨ moduleId > 0xFFFFFFFF))
    (m.path ++ " module id is outside uint32 range: ".toList ++ field fields "id")
  check (moduleId ∉ modules.map (·.idValue))
    ("duplicate module id: ".toList ++ field fields "id")
  check (field fields "config" ∉ configs modules)
    ("duplicate module config: ".toList ++ field fields "config")
  check (field fields "name" ∉ modules.map (·.name))
    ("duplicate module name: ".toList ++ field fields "name")
  let sources := pyItems (field fields "sources")
  check (sources ≠ []) (m.path ++ " must declare at least one source".toList)
  checkEach sources fun source => do
    check (¬ pyUnsafe source) (m.path ++ " has unsafe source path: ".toList ++ source)
    check (isFile source = true) (m.path ++ " source does not exist: ".toList ++ source)
  return {
    name := field fields "name"
    id := field fields "id"
    config := field fields "config"
    prompt := field fields "prompt"
    default := field fields "default"
    idValue := moduleId
    sources := sources
    depends := pyItems (field fields "depends")
    enabled := parseBool (field fields "default")
    path := m.path }

/-- The loop of `load_modules`. -/
def loadEach (isFile : Text → Bool) : List Manifest → List Module → Except Text (List Module)
  | [], modules => .ok modules
  | m :: rest, modules => do
    let module ← loadModule isFile modules m
    loadEach isFile rest (modules ++ [module])

/-- `load_modules`. -/
def loadModules (dir : FeatureDir) : Except Text (List Module) := do
  let modules ← loadEach dir.isFile dir.manifests []
  check (modules ≠ []) "no module manifests found".toList
  ifPasses (validateDependencyGraph modules) faultMessage modules

/-! ## What `load_modules` accepts -/

section Spec

variable {isFile : Text → Bool} {modules : List Module} {m : Manifest} {module : Module}

/-- The module has entries that no other module has. -/
def Fresh (modules : List Module) (module : Module) : Prop :=
  module.idValue ∉ modules.map (·.idValue) ∧ module.config ∉ configs modules ∧
    module.name ∉ modules.map (·.name)

/-- The module of a manifest, with its number. -/
def moduleOf (m : Manifest) (id : Int) : Module where
  name := field (parserFields m) "name"
  id := field (parserFields m) "id"
  config := field (parserFields m) "config"
  prompt := field (parserFields m) "prompt"
  default := field (parserFields m) "default"
  idValue := id
  sources := pyItems (field (parserFields m) "sources")
  depends := pyItems (field (parserFields m) "depends")
  enabled := parseBool (field (parserFields m) "default")
  path := m.path

/-- The module that `load_modules` reads from a manifest, if its checks pass. -/
structure Loads (isFile : Text → Bool) (m : Manifest) (module : Module) : Prop where
  known : ∀ l ∈ m.lines, l.field ∈ allowedFields
  complete : ∀ f ∈ requiredFields, f ∈ m.lines.map (·.field)
  name : isModuleName (field (parserFields m) "name") = true
  config : isConfigName (field (parserFields m) "config") = true
  default : lower (pyStrip (field (parserFields m) "default")) ∈ ["y".toList, "n".toList]
  prompt : pyStrip (field (parserFields m) "prompt") ≠ []
  id : pyInt (field (parserFields m) "id") = some module.idValue
  range : 0 < module.idValue ∧ module.idValue ≤ 0xFFFFFFFF
  sources : module.sources ≠ []
  files : ∀ source ∈ module.sources, ¬ pyUnsafe source ∧ isFile source = true
  eq : module = moduleOf m module.idValue

theorem keys_parserFields : (parserFields m).map (·.1) = m.lines.map (·.field) := by
  rw [parserFields, List.map_map]
  rfl

theorem unknown_eq_nil_iff :
    ((parserFields m).map (·.1)).filter (· ∉ allowedFields) = [] ↔
      ∀ l ∈ m.lines, l.field ∈ allowedFields := by
  rw [List.filter_eq_nil_iff, keys_parserFields, List.forall_mem_map]
  simp only [decide_eq_true_eq, not_not]

theorem missing_eq_nil_iff :
    requiredFields.filter (· ∉ (parserFields m).map (·.1)) = [] ↔
      ∀ f ∈ requiredFields, f ∈ m.lines.map (·.field) := by
  rw [List.filter_eq_nil_iff, keys_parserFields]
  simp only [decide_eq_true_eq, not_not]

theorem loadModule_eq_ok :
    loadModule isFile modules m = .ok module ↔ Loads isFile m module ∧ Fresh modules module := by
  unfold loadModule
  simp only [bind_eq_ok, exists_const, orError_eq_ok, checkEach_eq_ok, check_eq_ok,
    unknown_eq_nil_iff, missing_eq_nil_iff]
  constructor
  · rintro ⟨hknown, hcomplete, hname, hconfig, hdefault, hprompt, id, hid, hrange, hidNew,
      hconfigNew, hnameNew, hsources, hfiles, heq⟩
    obtain rfl := Except.ok.inj heq
    refine ⟨⟨hknown, hcomplete, hname, hconfig, hdefault, hprompt, hid, ?_, hsources, hfiles, rfl⟩,
      hidNew, hconfigNew, hnameNew⟩
    push Not at hrange
    exact hrange
  · rintro ⟨h, hidNew, hconfigNew, hnameNew⟩
    obtain ⟨hknown, hcomplete, hname, hconfig, hdefault, hprompt, hid, hrange, hsources, hfiles,
      heq⟩ := h
    have hsourcesEq : module.sources = pyItems (field (parserFields m) "sources") :=
      congrArg Module.sources heq
    have hconfigEq : module.config = field (parserFields m) "config" := congrArg Module.config heq
    have hnameEq : module.name = field (parserFields m) "name" := congrArg Module.name heq
    rw [hsourcesEq] at hsources hfiles
    rw [hconfigEq] at hconfigNew
    rw [hnameEq] at hnameNew
    refine ⟨hknown, hcomplete, hname, hconfig, hdefault, hprompt, module.idValue, hid, ?_, hidNew,
      hconfigNew, hnameNew, hsources, hfiles, congrArg Except.ok heq.symm⟩
    push Not
    exact hrange

/-- Modules with different entries. -/
structure Distinct (modules : List Module) : Prop where
  ids : (modules.map (·.idValue)).Nodup
  configs : (configs modules).Nodup
  names : (modules.map (·.name)).Nodup

theorem distinct_concat_iff :
    Distinct (modules ++ [module]) ↔ Distinct modules ∧ Fresh modules module := by
  have hnodup : ∀ {α : Type} (f : Module → α), ((modules ++ [module]).map f).Nodup ↔
      (modules.map f).Nodup ∧ f module ∉ modules.map f := by
    intro α f
    rw [List.map_append, List.map_singleton, List.nodup_append_comm]
    exact List.nodup_cons.trans and_comm
  constructor
  · rintro ⟨hids, hconfigs, hnames⟩
    rw [hnodup] at hids hconfigs hnames
    exact ⟨⟨hids.1, hconfigs.1, hnames.1⟩, hids.2, hconfigs.2, hnames.2⟩
  · rintro ⟨⟨hids, hconfigs, hnames⟩, hid, hconfig, hname⟩
    exact ⟨(hnodup _).mpr ⟨hids, hid⟩, (hnodup _).mpr ⟨hconfigs, hconfig⟩,
      (hnodup _).mpr ⟨hnames, hname⟩⟩

theorem Distinct.of_append {read : List Module} (h : Distinct (modules ++ read)) :
    Distinct modules := by
  have hsub : modules.Sublist (modules ++ read) := List.sublist_append_left _ _
  exact ⟨h.ids.sublist (hsub.map _), h.configs.sublist (hsub.map _), h.names.sublist (hsub.map _)⟩

/-- The loop reads all manifests, if the modules stay different. -/
theorem loadEach_eq_ok {manifests : List Manifest} {result : List Module}
    (hdistinct : Distinct modules) :
    loadEach isFile manifests modules = .ok result ↔
      ∃ read, result = modules ++ read ∧ List.Forall₂ (Loads isFile) manifests read ∧
        Distinct result := by
  induction manifests generalizing modules with
  | nil =>
      constructor
      · intro h
        obtain rfl := Except.ok.inj h
        exact ⟨[], (List.append_nil _).symm, List.Forall₂.nil, hdistinct⟩
      · rintro ⟨read, rfl, hread, _⟩
        cases hread
        exact congrArg Except.ok (List.append_nil _).symm
  | cons m rest ih =>
      simp only [loadEach, bind_eq_ok, loadModule_eq_ok]
      constructor
      · rintro ⟨module, ⟨hloads, hfresh⟩, hrest⟩
        obtain ⟨read, rfl, hread, hresult⟩ :=
          (ih (distinct_concat_iff.mpr ⟨hdistinct, hfresh⟩)).mp hrest
        exact ⟨module :: read, List.append_assoc _ _ _, List.Forall₂.cons hloads hread, hresult⟩
      · rintro ⟨read, rfl, hread, hresult⟩
        cases hread with
        | @cons _ module _ read hloads hrest =>
            have heq : modules ++ module :: read = modules ++ [module] ++ read :=
              (List.append_assoc modules [module] read).symm
            have hdistinct' : Distinct (modules ++ [module]) := (heq ▸ hresult).of_append
            exact ⟨module, ⟨hloads, (distinct_concat_iff.mp hdistinct').2⟩,
              (ih hdistinct').mpr ⟨read, heq, hrest, hresult⟩⟩

/-- `load_modules` accepts the manifests from which it reads modules that have different
    entries and well-founded dependencies, if there are any. -/
theorem loadModules_eq_ok {dir : FeatureDir} :
    loadModules dir = .ok modules ↔
      List.Forall₂ (Loads dir.isFile) dir.manifests modules ∧ Distinct modules ∧
        modules ≠ [] ∧ Passes (validateDependencyGraph modules) := by
  have hnil : Distinct [] := ⟨List.nodup_nil, List.nodup_nil, List.nodup_nil⟩
  unfold loadModules
  simp only [bind_eq_ok, exists_const, check_eq_ok, loadEach_eq_ok hnil, ifPasses_eq_ok]
  constructor
  · rintro ⟨_, ⟨read, rfl, hread, hdistinct⟩, hne, rfl, hpasses⟩
    exact ⟨hread, hdistinct, hne, hpasses⟩
  · rintro ⟨hread, hdistinct, hne, hpasses⟩
    exact ⟨modules, ⟨modules, rfl, hread, hdistinct⟩, hne, rfl, hpasses⟩

end Spec

end Config
end AppCore
