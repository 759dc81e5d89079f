/-
  AppCore.Config.SavedConfig

  The `.config` file of `tools/menuconfig.py`: what `save_config` writes and what `load_config`
  makes of a file.  A file that was saved is loaded as it was saved.
-/

import AppCore.Config.Normalize

namespace AppCore
namespace Config

/-! ## `save_config` -/

/-- The first line of a saved file. -/
def savedHeader : Text := "# Automatically generated from module manifests.".toList

/-- The line of a module. -/
def savedLine (m : Module) : Text :=
  if m.enabled = true then "CONFIG_".toList ++ m.config ++ "=y".toList
  else "# CONFIG_".toList ++ m.config ++ " is not set".toList

/-- The lines of a saved file. -/
def savedLines (modules : List Module) : List Text := savedHeader :: [] :: modules.map savedLine

/-- `save_config`, where the file can be written: the modules, which it normalizes, and the text
    of the file. -/
def saveConfig (modules : List Module) : List Module × Text :=
  let modules := normalizeDependencies modules
  (modules, unlines (savedLines modules))

/-! ## `load_config` -/

/-- What a stripped line of the file says: an entry with its value, nothing, or an error. -/
def readLine (line : Text) : Except Text (Option (Text × Bool)) :=
  if "CONFIG_".toList <+: line ∧ "=y".toList <:+ line then
    .ok (some ((line.drop 7).take (line.length - 2 - 7), true))
  else if "# CONFIG_".toList <+: line ∧ " is not set".toList <:+ line then
    .ok (some ((line.drop 9).take (line.length - 11 - 9), false))
  else if "CONFIG_".toList <+: line then
    .error ("invalid configuration line: ".toList ++ line)
  else .ok none

/-- `values` after the lines of the file. -/
def readValues : List Text → Dict Text Bool → Except Text (Dict Text Bool)
  | [], values => .ok values
  | line :: rest, values =>
    match readLine (pyStrip line) with
    | .error message => .error message
    | .ok none => readValues rest values
    | .ok (some (config, b)) => readValues rest (values.insert config b)

/-- The entries of the file no module has. -/
def unknownConfigs (modules : List Module) (values : Dict Text Bool) : List Text :=
  (values.map (·.1)).filter (· ∉ configs modules)

/-- `load_config`: the modules as it leaves them, or the text of the error it raises.  `file` is
    the text of the file, if there is one. -/
def loadConfig (modules : List Module) (file : Option Text) : Except Text (List Module) :=
  match file with
  | none => .ok (normalizeDependencies modules)
  | some text =>
    match readValues (pyLines text) [] with
    | .error message => .error message
    | .ok values =>
      let unknown := unknownConfigs modules values
      if unknown ≠ [] then
        .error ("unknown configuration entries: ".toList ++
          ", ".toList.intercalate (unknown.insertionSort (· ≤ ·)))
      else
        .ok (normalizeDependencies (modules.map fun m =>
          { m with enabled := (values.get? m.config).getD m.enabled }))

/-! ## Reading what was written -/

section Lines

variable {m : Module} {modules : List Module}

theorem savedLine_on (h : m.enabled = true) :
    savedLine m = "CONFIG_".toList ++ m.config ++ "=y".toList := if_pos h

theorem savedLine_off (h : m.enabled = false) :
    savedLine m = "# CONFIG_".toList ++ m.config ++ " is not set".toList := by
  rw [savedLine, if_neg (h ▸ Bool.false_ne_true)]

/-- A slice between a prefix and a suffix. -/
theorem slice_append (p t s : Text) :
    ((p ++ t ++ s).drop p.length).take ((p ++ t ++ s).length - s.length - p.length) = t := by
  have hlength : (p ++ t ++ s).length - s.length - p.length = t.length := by
    rw [List.length_append, List.length_append]
    omega
  rw [hlength, List.append_assoc, List.drop_left, List.take_left]

/-- The line of a module says what the module says. -/
theorem readLine_savedLine : readLine (savedLine m) = .ok (some (m.config, m.enabled)) := by
  unfold readLine
  cases h : m.enabled with
  | true =>
      rw [savedLine_on h, if_pos]
      · exact congrArg (fun t => Except.ok (some (t, true))) (slice_append _ m.config _)
      · exact ⟨⟨m.config ++ "=y".toList, (List.append_assoc _ _ _).symm⟩, List.suffix_append _ _⟩
  | false =>
      -- the line starts with `#`, so only the second test can succeed
      rw [savedLine_off h, if_neg, if_pos]
      · exact congrArg (fun t => Except.ok (some (t, false))) (slice_append _ m.config _)
      · exact ⟨⟨m.config ++ " is not set".toList, (List.append_assoc _ _ _).symm⟩,
          List.suffix_append _ _⟩
      · rintro ⟨⟨t, ht⟩, _⟩
        injection ht with hhead _
        exact absurd hhead (by decide)

/-- Neither end of a line is a space. -/
theorem stripBy_savedLine {space : Char → Bool} (h : "C#yt".toList.any space = false) :
    stripBy space (savedLine m) = savedLine m := by
  have hend : ∀ c ∈ "C#yt".toList, space c = false := by
    intro c hc
    apply Bool.eq_false_iff.mpr
    intro hspace
    exact Bool.false_ne_true (h ▸ List.any_eq_true.mpr ⟨c, hc, hspace⟩)
  cases hm : m.enabled with
  | true =>
      rw [savedLine_on hm]
      apply stripBy_eq_self
      · rintro c ⟨⟩
        exact hend _ (by decide)
      · intro c hc
        rw [List.getLast?_append] at hc
        cases hc
        exact hend _ (by decide)
  | false =>
      rw [savedLine_off hm]
      apply stripBy_eq_self
      · rintro c ⟨⟩
        exact hend _ (by decide)
      · intro c hc
        rw [List.getLast?_append] at hc
        cases hc
        exact hend _ (by decide)

theorem pyStrip_savedLine : pyStrip (savedLine m) = savedLine m := stripBy_savedLine (by decide)

/-- The characters of the lines of modules with well-formed entries. -/
def savedChar (c : Char) : Bool :=
  configChar c || c ∈ "CONFIG_=y# is not set".toList || c ∈ savedHeader

/-- A line contains only characters of its fixed parts and of the entry. -/
theorem savedChar_of_mem_savedLine {c : Char} (hm : isConfigName m.config = true)
    (hc : c ∈ savedLine m) : savedChar c = true := by
  have hfixed : ∀ t : Text, t ⊆ "CONFIG_=y# is not set".toList → c ∈ t → savedChar c = true := by
    intro t ht hmem
    simp only [savedChar, ht hmem, decide_true, Bool.or_true, Bool.true_or]
  have hconfig : c ∈ m.config → savedChar c = true := by
    intro hmem
    simp only [savedChar, configChar_of_mem hm hmem, Bool.true_or]
  cases h : m.enabled with
  | true =>
      rw [savedLine_on h, List.append_assoc, List.mem_append, List.mem_append] at hc
      rcases hc with hc | hc | hc
      · exact hfixed _ (by decide) hc
      · exact hconfig hc
      · exact hfixed _ (by decide) hc
  | false =>
      rw [savedLine_off h, List.append_assoc, List.mem_append, List.mem_append] at hc
      rcases hc with hc | hc | hc
      · exact hfixed _ (by decide) hc
      · exact hconfig hc
      · exact hfixed _ (by decide) hc

theorem savedChar_of_mem (hnames : ∀ m ∈ modules, isConfigName m.config = true) {x : Text}
    (hx : x ∈ savedLines modules) {c : Char} (hc : c ∈ x) : savedChar c = true := by
  rcases List.mem_cons.mp hx with rfl | hx
  · simp only [savedChar, hc, decide_true, Bool.or_true]
  rcases List.mem_cons.mp hx with rfl | hx
  · cases hc
  · obtain ⟨m, hm, rfl⟩ := List.mem_map.mp hx
    exact savedChar_of_mem_savedLine (hnames m hm) hc

theorem notMem_savedLines (hnames : ∀ m ∈ modules, isConfigName m.config = true) {c : Char}
    (hc : savedChar c = false) : ∀ x ∈ savedLines modules, c ∉ x := by
  intro x hx hmem
  rw [savedChar_of_mem hnames hx hmem] at hc
  cases hc

/-- A saved file is read line by line. -/
theorem pyLines_saved (hnames : ∀ m ∈ modules, isConfigName m.config = true) :
    pyLines (unlines (savedLines modules)) = savedLines modules := by
  apply pyLines_unlines
  · exact notMem_savedLines hnames (by decide)
  · exact notMem_savedLines hnames (by decide)

/-- The values read from the lines of modules are their entries. -/
theorem readValues_map_savedLine (values : Dict Text Bool) :
    readValues (modules.map savedLine) values =
      .ok (modules.foldl (fun d m => d.insert m.config m.enabled) values) := by
  induction modules generalizing values with
  | nil => rfl
  | cons m rest ih =>
      rw [List.map_cons, readValues, pyStrip_savedLine, readLine_savedLine]
      exact ih _

theorem readValues_savedLines :
    readValues (savedLines modules) [] = .ok (enabledMap modules) := by
  have hskip : readValues (savedLines modules) [] = readValues (modules.map savedLine) [] := rfl
  rw [hskip, readValues_map_savedLine, enabledMap, Dict.ofList, List.foldl_map]

end Lines

section RoundTrip

variable {modules other : List Module}

/-- The same modules, each with any value of `enabled`. -/
def SameButEnabled (modules other : List Module) : Prop :=
  modules.map (fun m => { m with enabled := false }) =
    other.map fun m => { m with enabled := false }

theorem SameButEnabled.configs (h : SameButEnabled modules other) :
    configs other = configs modules := by
  have hmap := congrArg Config.configs h
  simpa only [Config.configs, List.map_map, Function.comp_def] using hmap.symm

theorem SameButEnabled.withEnabled (h : SameButEnabled modules other)
    (enabled : Dict Text Bool) : withEnabled other enabled = withEnabled modules enabled := by
  have hmap := congrArg (Config.withEnabled · enabled) h
  simpa only [Config.withEnabled, List.map_map, Function.comp_def] using hmap.symm

theorem withEnabled_eq_self {enabled : Dict Text Bool} (h : Agrees modules enabled) :
    withEnabled modules enabled = modules := by
  have hid : ∀ m ∈ modules, { m with enabled := isEnabled enabled m.config } = m := by
    intro m hm
    rw [isEnabled, h m hm]
    rfl
  exact (List.map_congr_left hid).trans (List.map_id modules)

/-- Loading the entries of normalized modules into the same modules. -/
theorem loadConfig_entries {normalized : List Module} (hnd : (configs normalized).Nodup)
    (hsame : SameButEnabled normalized other) :
    unknownConfigs other (enabledMap normalized) = [] ∧
      (other.map fun m =>
        { m with enabled := ((enabledMap normalized).get? m.config).getD m.enabled }) =
        normalized := by
  have hagrees := agrees_enabledMap hnd
  constructor
  · apply List.filter_eq_nil_iff.mpr
    intro c hc
    have hkeys : ((normalized.map fun m => (m.config, m.enabled)).map (·.1)).Nodup := by
      rwa [List.map_map]
    rw [enabledMap, Dict.ofList_eq_self hkeys, List.map_map] at hc
    rw [hsame.configs]
    exact fun hnot => of_decide_eq_true hnot hc
  · refine Eq.trans ?_ ((hsame.withEnabled _).trans (withEnabled_eq_self hagrees))
    apply List.map_congr_left
    intro m hm
    have hmem : m.config ∈ configs normalized := hsame.configs ▸ mem_configs hm
    obtain ⟨e, he, heq⟩ := List.mem_map.mp hmem
    rw [isEnabled, ← heq, hagrees e he]
    rfl

/-- `load_config` undoes `save_config`.  A file saved for modules with different, well-formed
    configuration entries is loaded into the same modules, with any entries enabled, without
    error; it restores the normalized modules that were saved; and saving these writes the same
    file and leaves them as they are. -/
theorem loadConfig_saveConfig (hnd : (configs modules).Nodup)
    (hnames : ∀ m ∈ modules, isConfigName m.config = true) (hsame : SameButEnabled modules other) :
    (saveConfig modules).1 = normalizeDependencies modules ∧
      loadConfig other (some (saveConfig modules).2) = .ok (normalizeDependencies modules) ∧
      saveConfig (normalizeDependencies modules) = saveConfig modules := by
  have hidem := normalizeDependencies_idem hnd
  obtain ⟨enabled, hresult, _⟩ := normalizeDependencies_spec hnd
  have hconfigs : configs (normalizeDependencies modules) = configs modules :=
    configs_normalizeDependencies hnd
  have hnames' : ∀ m ∈ normalizeDependencies modules, isConfigName m.config = true := by
    rw [hresult]
    intro m hm
    obtain ⟨e, he, rfl⟩ := List.mem_map.mp hm
    exact hnames e he
  have hsame' : SameButEnabled (normalizeDependencies modules) other := by
    rw [hresult]
    refine Eq.trans ?_ hsame
    simp only [Config.withEnabled, List.map_map, Function.comp_def]
  refine ⟨rfl, ?_, ?_⟩
  · obtain ⟨hunknown, hentries⟩ := loadConfig_entries (hconfigs ▸ hnd) hsame'
    simp only [loadConfig, saveConfig, pyLines_saved hnames', readValues_savedLines, hunknown,
      hentries, hidem, ne_eq, not_true_eq_false, if_false]
  · rw [saveConfig, hidem]
    rfl

/-- The module `c` depends on one that is disabled. -/
def partlyEnabled : List Module :=
  [plainModule "d" "D" [] true, plainModule "c" "C" ["A"] true, plainModule "a" "A" [] false]

/-- The module `d` stays enabled, and `c` does not. -/
theorem loadConfig_saveConfig_cascade :
    loadConfig [plainModule "d" "D" [] false, plainModule "c" "C" ["A"] false,
        plainModule "a" "A" [] true] (some (saveConfig partlyEnabled).2) =
      .ok (normalizeDependencies partlyEnabled) ∧
      (saveConfig partlyEnabled).2 = ("# Automatically generated from module manifests.\n\n" ++
        "CONFIG_D=y\n# CONFIG_C is not set\n# CONFIG_A is not set\n").toList := by
  have hsame : SameButEnabled partlyEnabled [plainModule "d" "D" [] false,
      plainModule "c" "C" ["A"] false, plainModule "a" "A" [] true] := rfl
  exact ⟨(loadConfig_saveConfig (by decide) (by decide) hsame).2.1, by decide⟩

end RoundTrip

end Config
end AppCore
