/-
  AppCore.Config.Features

  `app/features/CMakeLists.txt`: how CMake reads the manifests, the check of the
  dependencies, and the pass that takes in the sources of the enabled modules.
-/

import AppCore.Config.Manifest
import AppCore.Lib.CmakeList

namespace AppCore
namespace Config

open CmakeList Checks

/-! ## `validate_module_dependencies` -/

/-- The items of a comma list, as `foreach` goes through them and `string(STRIP)` leaves them;
    an empty item is an item. -/
def listItems (t : Text) : List Text := (elements (ofCommas t)).map cmakeStrip

/-- The dependencies `validate_module_dependencies` looks at: it skips the empty ones. -/
def cmakeDependencies (depends : Text) : List Text := (listItems depends).filter (· ≠ [])

/-- The texts of the errors `validate_module_dependencies` stops with. -/
def cmakeFaultMessage : Digraph.Fault Text → Text
  | .cycle path => "Module dependency cycle: ".toList ++ " -> ".toList.intercalate path
  | .unknown a b => "CONFIG_".toList ++ a ++ " has unknown dependency CONFIG_".toList ++ b

/-- `validate_module_dependencies` for every known entry.  `property` gives the values of the
    `APP_MODULE_DEPENDS_*` properties.  The fuel is that of `Digraph.searchAll_spec`. -/
def validateModuleDependencies (known : List Text) (property : Text → Text) :
    Digraph.Result Text :=
  Digraph.searchAll (fun config => cmakeDependencies (property config)) known false
    (known.length + 1)

/-! ## `read_module_manifest` -/

/-- The lines of the file. -/
def Manifest.text (m : Manifest) : Text := unlines (m.lines.map Line.text)

/-- `manifest_lines`, as `foreach` goes through them. -/
def manifestLines (m : Manifest) : List Text :=
  elements (ofStrings (stringsFrom textChar m.text []))

/-- `^([a-z_]+)=(.*)$`. -/
def splitLine (line : Text) : Option (Text × Text) :=
  let name := line.takeWhile fun c => c.isLower || c = '_'
  let rest := line.dropWhile fun c => c.isLower || c = '_'
  if name ≠ [] ∧ rest.head? = some '=' then some (name, rest.tail) else none

/-- The variables `module_*` after the lines. -/
def readFields (path : Text) : List Text → Dict Text Text → Except Text (Dict Text Text)
  | [], fields => .ok fields
  | line :: rest, fields =>
    let line := cmakeStrip line
    if line = [] ∨ line.head? = some '#' then readFields path rest fields
    else do
      let (name, value) ← orError (splitLine line)
        ("Invalid module manifest line in ".toList ++ path ++ ": ".toList ++ line)
      check (name ∈ allowedFields)
        ("Unknown field '".toList ++ name ++ "' in ".toList ++ path)
      check (fields.get? name = none)
        ("Duplicate field '".toList ++ name ++ "' in ".toList ++ path)
      readFields path rest (fields.insert name value)

/-- `IS_ABSOLUTE`, or `..` between slashes: what CMake takes for unsafe, besides an empty
    path. -/
def cmakeUnsafe (source : Text) : Prop :=
  source.head? = some '/' ∨ source.head? = some '~' ∨ "..".toList ∈ source.splitOn '/'

instance (source : Text) : Decidable (cmakeUnsafe source) :=
  inferInstanceAs (Decidable (_ ∨ _ ∨ _))

/-- What `read_module_manifest` has read when its checks have passed. -/
structure Reading where
  name : Text
  id : Text
  config : Text
  prompt : Text
  defaultLower : Text
  idValue : Nat
  sources : Text
  depends : Option Text
deriving DecidableEq, Repr

/-- The files of the `sources` field, as the `foreach` loops go through them. -/
def Reading.sourceFiles (r : Reading) : List Text := listItems r.sources

/-- The value of the property `APP_MODULE_DEPENDS_*`. -/
def Reading.dependsProperty (r : Reading) : Text := r.depends.getD []

/-- `read_module_manifest` up to the part that depends on the mode. -/
def readManifest (isFile : Text → Bool) (m : Manifest) : Except Text Reading := do
  let fields ← readFields m.path (manifestLines m) []
  checkEach requiredFields fun f =>
    check (fields.get? f ≠ none) ("Missing '".toList ++ f ++ "' in ".toList ++ m.path)
  check (isModuleName (field fields "name") = true)
    ("Invalid module name '".toList ++ field fields "name" ++ "' in ".toList ++ m.path)
  check (isConfigName (field fields "config") = true)
    ("Invalid config name '".toList ++ field fields "config" ++ "' in ".toList ++ m.path)
  check (isCmakeId (field fields "id") = true)
    ("Invalid module id '".toList ++ field fields "id" ++ "' in ".toList ++ m.path)
  let idValue ← orError (mathExpr (field fields "id"))
    ("math cannot evaluate the expression: ".toList ++ field fields "id")
  check (¬ (idValue < 1 ∨ idValue > 4294967295))
    ("Module id '".toList ++ field fields "id" ++ "' is outside uint32 range in ".toList ++ m.path)
  let defaultLower := lower (field fields "default")
  check (¬ (defaultLower ≠ "y".toList ∧ defaultLower ≠ "n".toList))
    ("Module default must be y or n in ".toList ++ m.path)
  check (¬ (field fields "prompt" = [] ∨ field fields "sources" = []))
    ("Module prompt and sources must not be empty in ".toList ++ m.path)
  checkEach (listItems (field fields "sources")) fun source => do
    check (¬ (source = [] ∨ cmakeUnsafe source))
      ("Unsafe source path '".toList ++ source ++ "' in ".toList ++ m.path)
    check (isFile source = true)
      ("Module source '".toList ++ source ++ "' does not exist for ".toList ++ m.path)
  return {
    name := field fields "name"
    id := field fields "id"
    config := field fields "config"
    prompt := field fields "prompt"
    defaultLower := defaultLower
    idValue := idValue
    sources := field fields "sources"
    depends := fields.get? "depends".toList }

/-- What `read_module_manifest` reads from the variables, if its checks pass. -/
structure Reads (isFile : Text → Bool) (fields : Dict Text Text) (r : Reading) : Prop where
  complete : ∀ f ∈ requiredFields, fields.get? f ≠ none
  name : isModuleName (field fields "name") = true
  config : isConfigName (field fields "config") = true
  id : isCmakeId (field fields "id") = true
  number : mathExpr (field fields "id") = some r.idValue
  range : 1 ≤ r.idValue ∧ r.idValue ≤ 4294967295
  default : r.defaultLower = "y".toList ∨ r.defaultLower = "n".toList
  prompt : field fields "prompt" ≠ []
  sources : field fields "sources" ≠ []
  files : ∀ source ∈ listItems (field fields "sources"),
    source ≠ [] ∧ ¬ cmakeUnsafe source ∧ isFile source = true
  eq : r = {
    name := field fields "name"
    id := field fields "id"
    config := field fields "config"
    prompt := field fields "prompt"
    defaultLower := lower (field fields "default")
    idValue := r.idValue
    sources := field fields "sources"
    depends := fields.get? "depends".toList }

theorem readManifest_eq_ok {isFile : Text → Bool} {m : Manifest} {r : Reading} :
    readManifest isFile m = .ok r ↔
      ∃ fields, readFields m.path (manifestLines m) [] = .ok fields ∧ Reads isFile fields r := by
  unfold readManifest
  simp only [bind_eq_ok, exists_const, orError_eq_ok, checkEach_eq_ok, check_eq_ok]
  constructor
  · rintro ⟨fields, hfields, hcomplete, hname, hconfig, hid, n, hnumber, hrange, hdefault, hempty,
      hfiles, heq⟩
    obtain rfl := Except.ok.inj heq
    refine ⟨fields, hfields, ⟨hcomplete, hname, hconfig, hid, hnumber, ?_, ?_, ?_, ?_, ?_, rfl⟩⟩
    · push Not at hrange
      exact hrange
    · by_contra hnot
      exact hdefault (not_or.mp hnot)
    · exact fun h => hempty (Or.inl h)
    · exact fun h => hempty (Or.inr h)
    · intro source hsource
      obtain ⟨hbad, hfile⟩ := hfiles source hsource
      obtain ⟨hne, hsafe⟩ := not_or.mp hbad
      exact ⟨hne, hsafe, hfile⟩
  · rintro ⟨fields, hfields, h⟩
    obtain ⟨hcomplete, hname, hconfig, hid, hnumber, hrange, hdefault, hprompt, hsources, hfiles,
      heq⟩ := h
    have hlower := congrArg Reading.defaultLower heq
    dsimp only at hlower
    rw [hlower] at hdefault
    refine ⟨fields, hfields, hcomplete, hname, hconfig, hid, r.idValue, hnumber, ?_, ?_, ?_, ?_,
      congrArg Except.ok heq.symm⟩
    · push Not
      exact hrange
    · exact fun h => hdefault.elim h.1 h.2
    · exact fun h => h.elim hprompt hsources
    · intro source hsource
      obtain ⟨hne, hsafe, hfile⟩ := hfiles source hsource
      exact ⟨not_or.mpr ⟨hne, hsafe⟩, hfile⟩

/-! ## The mode `DECLARE` -/

/-- The global properties and the cache. -/
structure Globals where
  ids : List Nat
  names : List Text
  configs : List Text
  depends : Dict Text Text
  cache : Dict Text Text
deriving DecidableEq

/-- No module is declared yet. -/
def Globals.start (cache : Dict Text Text) : Globals where
  ids := []
  names := []
  configs := []
  depends := []
  cache := cache

/-- `CONFIG_*`. -/
def configVariable (config : Text) : Text := "CONFIG_".toList ++ config

/-- `option`: a cache entry that is there stays. -/
def option (cache : Dict Text Text) (key value : Text) : Dict Text Text :=
  if cache.get? key = none then cache.insert key value else cache

/-- What `DECLARE` adds for a manifest. -/
def Globals.declare (g : Globals) (r : Reading) : Globals where
  ids := g.ids ++ [r.idValue]
  names := g.names ++ [upper r.name]
  configs := g.configs ++ [r.config]
  depends := g.depends.insert r.config r.dependsProperty
  cache := option g.cache (configVariable r.config)
    (if r.defaultLower = "y".toList then "ON".toList else "OFF".toList)

/-- `read_module_manifest(manifest DECLARE)`.  The generated header, which no function reads, is
    left out. -/
def declareManifest (isFile : Text → Bool) (g : Globals) (m : Manifest) :
    Except Text Globals := do
  let r ← readManifest isFile m
  check (r.idValue ∉ g.ids) ("Duplicate module id ".toList ++ r.id ++ " in ".toList ++ m.path)
  check (upper r.name ∉ g.names)
    ("Duplicate module name ".toList ++ r.name ++ " in ".toList ++ m.path)
  check (r.config ∉ g.configs)
    ("Duplicate module config ".toList ++ r.config ++ " in ".toList ++ m.path)
  return g.declare r

/-- The first loop over the manifests. -/
def declareEach (isFile : Text → Bool) : List Manifest → Globals → Except Text Globals
  | [], g => .ok g
  | m :: rest, g => do
    let g ← declareManifest isFile g m
    declareEach isFile rest g

/-- The value of a global property. -/
def Globals.property (g : Globals) (config : Text) : Text := (g.depends.get? config).getD []

/-- The file up to the check of the dependencies. -/
def declareModules (dir : FeatureDir) (cache : Dict Text Text) : Except Text Globals := do
  check (dir.manifests ≠ []) ("No module manifests found in ".toList ++ dir.path)
  let g ← declareEach dir.isFile dir.manifests (Globals.start cache)
  ifPasses (validateModuleDependencies g.configs g.property) cmakeFaultMessage g

/-! ## The mode `BUILD` -/

end Config
end AppCore
