/-
  AppCore.Config.Readers

  The two readers of manifests compared.  `read_module_manifest` accepts less than
  `load_modules`: it wants the values of most fields without leading blanks, numbers without
  signs, underscores and the prefixes of other bases, and source lists without empty items.
  What both accept they read alike, as long as CMake's lists keep the lines and items whole.
-/

import AppCore.Config.Features
import AppCore.Config.Validators

namespace AppCore
namespace Config

open CmakeList Checks

/-! ## The fields of a manifest -/

/-- The value of a field in the file; a field that is missing has none. -/
def Manifest.raw (m : Manifest) (f : String) : Text := (m.value? f).getD []

/-- The value of a field without trailing blanks, which both tools ignore. -/
def Manifest.trimmed (m : Manifest) (f : String) : Text := cmakeTrim (m.raw f)

/-- The manifest goes through CMake's lists unchanged: its lines stay lines, the items of its
    lists stay items, and its only spaces are blanks and tabs. -/
structure Manifest.Plain (m : Manifest) : Prop where
  lines : ∀ l ∈ m.lines, Whole l.text
  spaces : ∀ l ∈ m.lines, ∀ c ∈ l.value, pySpace c = true → c = ' ' ∨ c = '\t'
  items : ∀ f ∈ ["sources", "depends"], ∀ x ∈ (m.trimmed f).splitOn ',', Whole x ∧ ';' ∉ x

/-- What `read_module_manifest` demands beyond `load_modules`. -/
structure Manifest.Strict (m : Manifest) : Prop where
  leading : ∀ f ∈ ["name", "config", "default"], ∀ c, (m.trimmed f).head? = some c →
    cmakeSpace c = false
  id : isCmakeId (m.trimmed "id") = true
  sources : ∀ x ∈ (m.trimmed "sources").splitOn ',',
    cmakeStrip x ≠ [] ∧ (cmakeStrip x).head? ≠ some '~'

/-- Both tools have read the same from a manifest. -/
structure SameReading (r : Reading) (module : Module) : Prop where
  name : r.name = module.name
  config : r.config = module.config
  idValue : (r.idValue : Int) = module.idValue
  sources : r.sourceFiles = module.sources
  depends : cmakeDependencies r.dependsProperty = module.depends

section Fields

variable {m : Manifest} {l : Line}

/-- The variables `module_*` when every line is taken in. -/
def cmakeFields (m : Manifest) : Dict Text Text := m.lines.map fun l => (l.field, cmakeTrim l.value)

theorem field_parserFields (f : String) : field (parserFields m) f = pyStrip (m.raw f) := by
  have hmap : parserFields m =
      (m.lines.map fun l => (l.field, l.value)).map fun e => (e.1, pyStrip e.2) := by
    rw [parserFields, List.map_map]
    rfl
  rw [field, hmap, Dict.get?_map, Manifest.raw, Manifest.value?]
  cases Dict.get? (m.lines.map fun l => (l.field, l.value)) f.toList <;> rfl

theorem get?_cmakeFields (f : String) :
    (cmakeFields m).get? f.toList = (m.value? f).map cmakeTrim := by
  have hmap : cmakeFields m =
      (m.lines.map fun l => (l.field, l.value)).map fun e => (e.1, cmakeTrim e.2) := by
    rw [cmakeFields, List.map_map]
    rfl
  rw [hmap, Dict.get?_map, Manifest.value?]

theorem field_cmakeFields (f : String) : field (cmakeFields m) f = m.trimmed f := by
  rw [field, get?_cmakeFields, Manifest.trimmed, Manifest.raw]
  cases m.value? f <;> rfl

theorem lt_of_fieldChar {c : Char} (h : fieldChar c = true) : c.toNat < 128 := by
  simp only [fieldChar, Char.isLower, Char.isDigit, Bool.or_eq_true, Bool.and_eq_true,
    decide_eq_true_eq, UInt32.le_iff_toNat_le, ge_iff_le] at h
  have : c.toNat = c.val.toNat := rfl
  have : 'z'.val.toNat = 122 := rfl
  have : '9'.val.toNat = 57 := rfl
  rcases h with h | rfl
  · omega
  · decide

/-- The characters of field names, checked one by one. -/
theorem plain_of_fieldChar {c : Char} (h : fieldChar c = true) :
    cmakeSpace c = false ∧ textChar c = true ∧ c ≠ '=' ∧ c ≠ '#' :=
  forall_ascii (fun c => fieldChar c = true →
    cmakeSpace c = false ∧ textChar c = true ∧ c ≠ '=' ∧ c ≠ '#') (by decide) (lt_of_fieldChar h) h

/-- A stripped line loses the blanks at its end only. -/
theorem cmakeStrip_text (l : Line) :
    cmakeStrip l.text = l.field ++ '=' :: cmakeTrim l.value := by
  obtain ⟨c, t, hfield⟩ := List.exists_cons_of_ne_nil l.field_ne
  have hc : cmakeSpace c = false :=
    (plain_of_fieldChar (l.fieldChar_of_mem c (hfield ▸ List.mem_cons_self))).1
  show stripBy cmakeSpace (l.field ++ '=' :: l.value) = _
  rw [stripBy_eq_dropWhile, rdropWhile_append (by decide), hfield, List.cons_append,
    List.dropWhile_cons_of_neg (by simp [hc])]
  rfl

theorem textChar_text (l : Line) : ∀ c ∈ l.text, textChar c = true := by
  intro c hc
  rcases List.mem_append.mp hc with hc | hc
  · exact (plain_of_fieldChar (l.fieldChar_of_mem c hc)).2.1
  rcases List.mem_cons.mp hc with rfl | hc
  · decide
  · exact l.textChar_of_mem c hc

theorem notMem_text {c : Char} (hc : textChar c = false) (l : Line) : c ∉ l.text := by
  intro hmem
  rw [textChar_text l c hmem] at hc
  cases hc

/-- `file(STRINGS)` finds the lines of a manifest. -/
theorem stringsFrom_text (m : Manifest) :
    stringsFrom textChar m.text [] = m.lines.map Line.text := by
  have htext : ∀ {P : Text → Prop}, (∀ l : Line, P l.text) → ∀ x ∈ m.lines.map Line.text, P x := by
    intro P h x hx
    obtain ⟨l, _, rfl⟩ := List.mem_map.mp hx
    exact h l
  exact stringsFrom_lines (htext (notMem_text (by decide))) (htext (notMem_text (by decide)))
    (htext textChar_text)

/-- The lines of a plain manifest go through the list unchanged. -/
theorem manifestLines_of_plain (h : ∀ l ∈ m.lines, Whole l.text) :
    manifestLines m = m.lines.map Line.text := by
  rw [manifestLines, stringsFrom_text]
  apply elements_ofStrings
  · intro x hx
    obtain ⟨l, hl, rfl⟩ := List.mem_map.mp hx
    exact h l hl
  · intro hnil
    obtain ⟨l, _, hl⟩ := List.map_eq_singleton_iff.mp hnil
    exact List.append_ne_nil_of_right_ne_nil _ (List.cons_ne_nil _ _) hl

/-- The characters of the fields CMake knows. -/
theorem lower_of_allowed {f : Text} (h : f ∈ allowedFields) :
    f ≠ [] ∧ ∀ c ∈ f, (c.isLower || c = '_') = true := by
  have hcheck : ∀ f ∈ allowedFields, f ≠ [] ∧ (f.all fun c => c.isLower || c = '_') = true := by
    decide
  exact ⟨(hcheck f h).1, List.all_eq_true.mp (hcheck f h).2⟩

theorem splitLine_of_lower {f v : Text} (hne : f ≠ [])
    (h : ∀ c ∈ f, (c.isLower || c = '_') = true) : splitLine (f ++ '=' :: v) = some (f, v) := by
  unfold splitLine
  rw [List.takeWhile_append_of_pos h, List.dropWhile_append_of_pos h]
  simp [hne]

/-- The first occurrence of a character splits a text in one way. -/
theorem append_cons_inj {a : Char} {x y u v : Text} (hx : a ∉ x) (hy : a ∉ y)
    (h : x ++ a :: u = y ++ a :: v) : x = y ∧ u = v := by
  induction x generalizing y with
  | nil =>
      cases y with
      | nil => exact ⟨rfl, (List.cons.inj h).2⟩
      | cons c y => exact absurd (List.mem_cons.mpr (Or.inl (List.cons.inj h).1)) hy
  | cons c x ih =>
      cases y with
      | nil => exact absurd (List.mem_cons.mpr (Or.inl (List.cons.inj h).1.symm)) hx
      | cons d y =>
          obtain ⟨rfl, htail⟩ := List.cons.inj h
          obtain ⟨rfl, rfl⟩ := ih (fun hmem => hx (List.mem_cons_of_mem _ hmem))
            (fun hmem => hy (List.mem_cons_of_mem _ hmem)) htail
          exact ⟨rfl, rfl⟩

/-- A line is split at its first `=`. -/
theorem splitLine_eq_some {f v name value : Text} (hf : '=' ∉ f)
    (h : splitLine (f ++ '=' :: v) = some (name, value)) : name = f ∧ value = v := by
  unfold splitLine at h
  dsimp only at h
  split at h
  · rename_i hsplit
    have hpair := Option.some.inj h
    obtain ⟨rest, hrest⟩ : ∃ rest, (f ++ '=' :: v).dropWhile (fun c => c.isLower || c = '_') =
        '=' :: rest := by
      cases hs : (f ++ '=' :: v).dropWhile (fun c => c.isLower || c = '_') with
      | nil =>
          rw [hs] at hsplit
          cases hsplit.2
      | cons c rest =>
          rw [hs] at hsplit
          obtain rfl := Option.some.inj hsplit.2
          exact ⟨rest, rfl⟩
    rw [hrest] at hpair
    have hname : '=' ∉ (f ++ '=' :: v).takeWhile fun c => c.isLower || c = '_' := by
      intro hmem
      have := List.mem_takeWhile_imp hmem
      cases this
    have hwhole := List.takeWhile_append_dropWhile (p := fun c : Char => c.isLower || c = '_')
      (l := f ++ '=' :: v)
    rw [hrest] at hwhole
    obtain ⟨hfst, hsnd⟩ := Prod.mk.inj hpair
    rw [hfst] at hwhole hname
    rw [List.tail_cons] at hsnd
    obtain ⟨hnameEq, hvalueEq⟩ := append_cons_inj hname hf hwhole
    exact ⟨hnameEq, hsnd.symm.trans hvalueEq⟩
  · cases h

/-- A line of a manifest is neither empty nor a comment. -/
theorem not_skipped (l : Line) :
    ¬ (cmakeStrip l.text = [] ∨ (cmakeStrip l.text).head? = some '#') := by
  obtain ⟨c, t, hfield⟩ := List.exists_cons_of_ne_nil l.field_ne
  have hmem : c ∈ l.field := hfield ▸ List.mem_cons_self
  have hc : c ≠ '#' := (plain_of_fieldChar (l.fieldChar_of_mem c hmem)).2.2.2
  rw [cmakeStrip_text, hfield, List.cons_append]
  rintro (h | h)
  · cases h
  · exact hc (Option.some.inj h)

/-- The lines are taken in if CMake knows all their fields. -/
theorem readFields_lines {path : Text} {lines : List Line} {acc fields : Dict Text Text}
    (hnd : (lines.map (·.field)).Nodup) (hnew : ∀ l ∈ lines, l.field ∉ acc.map (·.1)) :
    readFields path (lines.map Line.text) acc = .ok fields ↔
      (∀ l ∈ lines, l.field ∈ allowedFields) ∧
        fields = acc ++ lines.map fun l => (l.field, cmakeTrim l.value) := by
  induction lines generalizing acc with
  | nil =>
      rw [List.map_nil, readFields, List.map_nil, List.append_nil]
      constructor
      · intro h
        exact ⟨fun l hl => (List.not_mem_nil hl).elim, (Except.ok.inj h).symm⟩
      · exact fun h => congrArg _ h.2.symm
  | cons l rest ih =>
      obtain ⟨hfirst, hnd'⟩ := List.nodup_cons.mp hnd
      have hfield : '=' ∉ l.field := fun hmem =>
        (plain_of_fieldChar (l.fieldChar_of_mem _ hmem)).2.2.1 rfl
      have hlnew : l.field ∉ acc.map (·.1) := hnew l List.mem_cons_self
      -- the entry of this line comes last, and the other lines are still new
      have hnew' : ∀ e ∈ rest, e.field ∉ (acc ++ [(l.field, cmakeTrim l.value)]).map (·.1) := by
        intro e he hmem
        rw [List.map_append, List.mem_append] at hmem
        rcases hmem with hmem | hmem
        · exact hnew e (List.mem_cons_of_mem _ he) hmem
        · have heq : e.field = l.field := List.mem_singleton.mp hmem
          exact hfirst (List.mem_map.mpr ⟨e, he, heq⟩)
      rw [List.map_cons, readFields]
      dsimp only
      rw [if_neg (not_skipped l), cmakeStrip_text]
      simp only [bind_eq_ok, orError_eq_ok, check_eq_ok, exists_const, Prod.exists]
      constructor
      · rintro ⟨name, value, hsplit, hallowed, _, hrest⟩
        obtain ⟨rfl, rfl⟩ := splitLine_eq_some hfield hsplit
        rw [Dict.insert_of_notMem hlnew] at hrest
        obtain ⟨hall, rfl⟩ := (ih hnd' hnew').mp hrest
        exact ⟨List.forall_mem_cons.mpr ⟨hallowed, hall⟩, List.append_assoc _ _ _⟩
      · rintro ⟨hall, rfl⟩
        obtain ⟨hallowed, hall'⟩ := List.forall_mem_cons.mp hall
        obtain ⟨hne, hlower⟩ := lower_of_allowed hallowed
        refine ⟨l.field, cmakeTrim l.value, splitLine_of_lower hne hlower, hallowed,
          Dict.get?_eq_none_iff.mpr hlnew, ?_⟩
        rw [Dict.insert_of_notMem hlnew]
        refine (ih hnd' hnew').mpr ⟨hall', ?_⟩
        rw [List.map_cons, List.append_assoc]
        rfl

/-- The fields of a plain manifest. -/
theorem readFields_of_plain {fields : Dict Text Text} (h : ∀ l ∈ m.lines, Whole l.text) :
    readFields m.path (manifestLines m) [] = .ok fields ↔
      (∀ l ∈ m.lines, l.field ∈ allowedFields) ∧ fields = cmakeFields m := by
  rw [manifestLines_of_plain h,
    readFields_lines m.distinct fun l _ => List.not_mem_nil]
  rfl

end Fields

/-! ## Reading one manifest -/

section Agreement

variable {isFile : Text → Bool} {m : Manifest} {r : Reading} {module : Module} {f : String}

/-- The characters of a field are characters of a line. -/
theorem exists_line_of_mem_raw {c : Char} (hc : c ∈ m.raw f) : ∃ l ∈ m.lines, c ∈ l.value := by
  unfold Manifest.raw Manifest.value? at hc
  cases hv : Dict.get? (m.lines.map fun l => (l.field, l.value)) f.toList with
  | none =>
      rw [hv] at hc
      cases hc
  | some v =>
      rw [hv] at hc
      have hkeys : ((m.lines.map fun l => (l.field, l.value)).map (·.1)).Nodup := by
        rw [List.map_map]
        exact m.distinct
      obtain ⟨l, hl, heq⟩ := List.mem_map.mp (Dict.mem_of_get?_eq_some hv)
      obtain ⟨_, rfl⟩ := Prod.mk.inj heq
      exact ⟨l, hl, hc⟩

/-- The two tools take the same characters of a plain manifest for spaces. -/
theorem Manifest.Plain.space_eq (h : m.Plain) {c : Char} (hc : c ∈ m.raw f) :
    pySpace c = cmakeSpace c := by
  obtain ⟨l, hl, hmem⟩ := exists_line_of_mem_raw hc
  cases hpy : pySpace c with
  | true =>
      rcases h.spaces l hl c hmem hpy with rfl | rfl
      · rfl
      · rfl
  | false =>
      cases hcmake : cmakeSpace c with
      | false => rfl
      | true =>
          rw [pySpace_of_cmakeSpace hcmake] at hpy
          cases hpy

theorem Manifest.Plain.pyStrip_raw (h : m.Plain) : pyStrip (m.raw f) = cmakeStrip (m.raw f) :=
  stripBy_congr fun _ hc => h.space_eq hc

/-- A field whose value has no leading blanks is read alike. -/
theorem Manifest.Plain.pyStrip_eq_trimmed (h : m.Plain)
    (hhead : ∀ c, (m.trimmed f).head? = some c → cmakeSpace c = false) :
    pyStrip (m.raw f) = m.trimmed f :=
  h.pyStrip_raw.trans (stripBy_eq_rdropWhile hhead)

theorem trimmed_subset {c : Char} (hc : c ∈ m.trimmed f) : c ∈ m.raw f :=
  (List.rdropWhile_prefix cmakeSpace _).subset hc

/-- The items `foreach` goes through. -/
theorem Manifest.Plain.listItems_trimmed (h : m.Plain) (hf : f ∈ ["sources", "depends"])
    (hne : m.trimmed f ≠ []) :
    listItems (m.trimmed f) = ((m.trimmed f).splitOn ',').map cmakeStrip := by
  rw [listItems, elements_ofCommas hne (h.items f hf)]

/-- The non-empty items are the same for both tools. -/
theorem Manifest.Plain.pyItems_eq (h : m.Plain) (hf : f ∈ ["sources", "depends"]) :
    pyItems (pyStrip (m.raw f)) = (listItems (m.trimmed f)).filter (· ≠ []) := by
  have hdrop : pyStrip (m.raw f) = (m.trimmed f).dropWhile cmakeSpace :=
    h.pyStrip_raw.trans stripBy_eq_dropWhile
  by_cases hne : m.trimmed f = []
  · rw [hdrop, hne]
    rfl
  · have hsame : ((pyStrip (m.raw f)).splitOn ',').map pyStrip =
        ((pyStrip (m.raw f)).splitOn ',').map cmakeStrip := by
      apply List.map_congr_left
      intro x hx
      apply stripBy_congr
      intro c hc
      have hmem : c ∈ (m.trimmed f).dropWhile cmakeSpace := hdrop ▸ mem_of_mem_splitOn hx hc
      exact h.space_eq (trimmed_subset ((List.dropWhile_suffix _).subset hmem))
    rw [pyItems, hsame, hdrop, h.listItems_trimmed hf hne]
    exact congrArg _ (map_stripBy_splitOn (by decide))

theorem cmakeUnsafe_iff {source : Text} :
    cmakeUnsafe source ↔ pyUnsafe source ∨ source.head? = some '~' := by
  unfold cmakeUnsafe pyUnsafe
  tauto

/-- A class of characters without ASCII spaces has none of CMake's spaces. -/
theorem cmakeSpace_eq_false {c : Char} (P : Char → Bool)
    (h : ∀ n < 128, P (Char.ofNat n) = true → cmakeSpace (Char.ofNat n) = false)
    (hc : P c = true) : cmakeSpace c = false := by
  by_contra hspace
  have hspace' : cmakeSpace c = true := by simpa using hspace
  have hlt : c.toNat < 128 := by
    have hmem : c.toNat ∈ [0x09, 0x0a, 0x0b, 0x0c, 0x0d, 0x20] := of_decide_eq_true hspace'
    simp only [List.mem_cons, List.not_mem_nil, or_false] at hmem
    omega
  have hcheck := forall_ascii (fun c => P c = true → cmakeSpace c = false) h hlt hc
  exact hspace hcheck

theorem head_of_isModuleName {t : Text} (h : isModuleName t = true) :
    ∀ c, t.head? = some c → cmakeSpace c = false := by
  cases t with
  | nil => cases h
  | cons d t =>
      rintro c ⟨⟩
      exact cmakeSpace_eq_false Char.isLower (by decide) (Bool.and_eq_true_iff.mp h).1

theorem head_of_isConfigName {t : Text} (h : isConfigName t = true) :
    ∀ c, t.head? = some c → cmakeSpace c = false := by
  cases t with
  | nil => cases h
  | cons d t =>
      rintro c ⟨⟩
      exact cmakeSpace_eq_false Char.isUpper (by decide) (Bool.and_eq_true_iff.mp h).1

theorem head_of_isCmakeId {t : Text} (h : isCmakeId t = true) :
    ∀ c, t.head? = some c → cmakeSpace c = false := by
  intro c hc
  exact cmakeSpace_eq_false (fun c => hexChar c || c = 'x' || c = 'X') (by decide)
    (by simpa [or_assoc] using idChar_of_mem h (List.mem_of_head? hc))

theorem head_of_lower {t : Text} (h : lower t = "y".toList ∨ lower t = "n".toList) :
    ∀ c, t.head? = some c → cmakeSpace c = false := by
  intro c hc
  cases t with
  | nil => cases hc
  | cons d t =>
      obtain rfl := Option.some.inj hc
      have hlower : d.toLower = 'y' ∨ d.toLower = 'n' :=
        h.imp (fun h => (List.cons.inj h).1) fun h => (List.cons.inj h).1
      exact cmakeSpace_eq_false (fun c => c.toLower = 'y' || c.toLower = 'n') (by decide)
        (by simpa using hlower)

theorem get?_cmakeFields_ne_none {f : Text} :
    (cmakeFields m).get? f ≠ none ↔ f ∈ m.lines.map (·.field) := by
  rw [ne_eq, Dict.get?_eq_none_iff, not_not, cmakeFields, List.map_map]
  rfl

theorem mathExpr_eq_some {t : Text} {n : Nat} (h : mathExpr t = some n) : cmakeNumber t = n := by
  unfold mathExpr at h
  split at h
  · exact Option.some.inj h
  · cases h

/-- The non-empty source list both tools read, when no item of it is empty. -/
theorem Manifest.Plain.sources_eq (h : m.Plain) (hne : m.trimmed "sources" ≠ [])
    (hitems : ∀ x ∈ listItems (m.trimmed "sources"), x ≠ []) :
    pyItems (pyStrip (m.raw "sources")) = listItems (m.trimmed "sources") ∧
      listItems (m.trimmed "sources") ≠ [] := by
  constructor
  · rw [h.pyItems_eq (by decide), List.filter_eq_self]
    exact fun x hx => decide_eq_true (hitems x hx)
  · rw [h.listItems_trimmed (by decide) hne, ne_eq, List.map_eq_nil_iff]
    exact List.splitOn_ne_nil _ _

/-- What CMake has accepted menuconfig accepts too, and reads alike. -/
theorem Reads.loads (hplain : m.Plain) (hknown : ∀ l ∈ m.lines, l.field ∈ allowedFields)
    (h : Reads isFile (cmakeFields m) r) :
    m.Strict ∧ ∃ module, Loads isFile m module ∧ SameReading r module := by
  obtain ⟨hcomplete, hname, hconfig, hid, hnumber, hrange, hdefault, hprompt, hsources, hfiles,
    heq⟩ := h
  rw [field_cmakeFields] at hname hconfig hid hnumber hprompt hsources hfiles
  have hlower : r.defaultLower = lower (m.trimmed "default") :=
    field_cmakeFields (m := m) "default" ▸ congrArg Reading.defaultLower heq
  rw [hlower] at hdefault
  -- the four fields without leading blanks have the same values
  have hpyName := hplain.pyStrip_eq_trimmed (head_of_isModuleName hname)
  have hpyConfig := hplain.pyStrip_eq_trimmed (head_of_isConfigName hconfig)
  have hpyId := hplain.pyStrip_eq_trimmed (head_of_isCmakeId hid)
  have hpyDefault := hplain.pyStrip_eq_trimmed (head_of_lower hdefault)
  obtain ⟨hsourcesEq, hsourcesNe⟩ := hplain.sources_eq hsources fun x hx => (hfiles x hx).1
  have hstrict : m.Strict := by
    refine ⟨?_, hid, ?_⟩
    · intro f hf
      simp only [List.mem_cons, List.not_mem_nil, or_false] at hf
      rcases hf with rfl | rfl | rfl
      · exact head_of_isModuleName hname
      · exact head_of_isConfigName hconfig
      · exact head_of_lower hdefault
    · intro x hx
      have hmem : cmakeStrip x ∈ listItems (m.trimmed "sources") := by
        rw [hplain.listItems_trimmed (by decide) hsources]
        exact List.mem_map_of_mem hx
      obtain ⟨hne, hsafe, _⟩ := hfiles _ hmem
      exact ⟨hne, fun htilde => hsafe (Or.inr (Or.inl htilde))⟩
  refine ⟨hstrict, moduleOf m r.idValue, ?_, ?_⟩
  · refine ⟨hknown, ?_, ?_, ?_, ?_, ?_, ?_, ?_, ?_, ?_, rfl⟩
    · exact fun f hf => get?_cmakeFields_ne_none.mp (hcomplete f hf)
    · rwa [field_parserFields, hpyName]
    · rwa [field_parserFields, hpyConfig]
    · rw [field_parserFields, pyStrip, stripBy_idem]
      show lower (pyStrip (m.raw "default")) ∈ _
      rw [hpyDefault]
      simpa using hdefault
    · rw [field_parserFields, pyStrip, stripBy_idem]
      show pyStrip (m.raw "prompt") ≠ []
      rw [hplain.pyStrip_raw]
      exact fun hnil => hprompt (stripBy_eq_nil_iff.mp hnil)
    · rw [field_parserFields, hpyId, pyInt_of_isCmakeId hid, mathExpr_eq_some hnumber]
      rfl
    · show (0 : Int) < r.idValue ∧ (r.idValue : Int) ≤ 0xFFFFFFFF
      omega
    · show pyItems (field (parserFields m) "sources") ≠ []
      rw [field_parserFields, hsourcesEq]
      exact hsourcesNe
    · intro source hsource
      have hmem : source ∈ listItems (m.trimmed "sources") := by
        rw [← hsourcesEq, ← field_parserFields]
        exact hsource
      obtain ⟨_, hsafe, hfile⟩ := hfiles source hmem
      exact ⟨fun hbad => hsafe (cmakeUnsafe_iff.mpr (Or.inl hbad)), hfile⟩
  · rw [heq]
    refine ⟨?_, ?_, rfl, ?_, ?_⟩
    · show field (cmakeFields m) "name" = field (parserFields m) "name"
      rw [field_cmakeFields, field_parserFields, hpyName]
    · show field (cmakeFields m) "config" = field (parserFields m) "config"
      rw [field_cmakeFields, field_parserFields, hpyConfig]
    · show listItems (field (cmakeFields m) "sources") = pyItems (field (parserFields m) "sources")
      rw [field_cmakeFields, field_parserFields, hsourcesEq]
    · show cmakeDependencies (field (cmakeFields m) "depends") =
        pyItems (field (parserFields m) "depends")
      rw [field_cmakeFields, field_parserFields, hplain.pyItems_eq (by decide)]
      rfl

/-- What menuconfig has accepted CMake accepts if the manifest is strict, and reads alike. -/
theorem Loads.reads (hplain : m.Plain) (hstrict : m.Strict) (h : Loads isFile m module) :
    ∃ r, Reads isFile (cmakeFields m) r ∧ SameReading r module := by
  obtain ⟨_, hcomplete, hname, hconfig, hdefault, hprompt, hid, hrange, hsources, hfiles, heq⟩ := h
  have hpyName := hplain.pyStrip_eq_trimmed (hstrict.leading "name" (by decide))
  have hpyConfig := hplain.pyStrip_eq_trimmed (hstrict.leading "config" (by decide))
  have hpyDefault := hplain.pyStrip_eq_trimmed (hstrict.leading "default" (by decide))
  have hpyId := hplain.pyStrip_eq_trimmed (head_of_isCmakeId hstrict.id)
  rw [field_parserFields, hpyName] at hname
  rw [field_parserFields, hpyConfig] at hconfig
  rw [field_parserFields, pyStrip, stripBy_idem] at hdefault hprompt
  have hprompt' : m.trimmed "prompt" ≠ [] := fun hnil =>
    hprompt (hplain.pyStrip_raw.trans (stripBy_eq_nil_iff.mpr hnil))
  have hdefault' : lower (m.trimmed "default") = "y".toList ∨
      lower (m.trimmed "default") = "n".toList := by
    rw [← hpyDefault]
    simpa [pyStrip] using hdefault
  -- the number is in the range of both
  rw [field_parserFields, hpyId, pyInt_of_isCmakeId hstrict.id] at hid
  have hnumber : (cmakeNumber (m.trimmed "id") : Int) = module.idValue := Option.some.inj hid
  -- no item of the source list is empty
  have hsourcesEq : module.sources = pyItems (pyStrip (m.raw "sources")) := by
    rw [← field_parserFields]
    exact congrArg Module.sources heq
  have hsourcesTrimmed : m.trimmed "sources" ≠ [] := by
    intro hnil
    have hempty := hstrict.sources [] (by rw [hnil]; exact List.mem_singleton_self _)
    exact hempty.1 rfl
  have hitems : ∀ x ∈ listItems (m.trimmed "sources"), x ≠ [] ∧ x.head? ≠ some '~' := by
    rw [hplain.listItems_trimmed (by decide) hsourcesTrimmed]
    intro x hx
    obtain ⟨y, hy, rfl⟩ := List.mem_map.mp hx
    exact hstrict.sources y hy
  obtain ⟨hpyItems, _⟩ := hplain.sources_eq hsourcesTrimmed fun x hx => (hitems x hx).1
  rw [hsourcesEq, hpyItems] at hfiles
  refine ⟨{
    name := field (cmakeFields m) "name"
    id := field (cmakeFields m) "id"
    config := field (cmakeFields m) "config"
    prompt := field (cmakeFields m) "prompt"
    defaultLower := lower (field (cmakeFields m) "default")
    idValue := cmakeNumber (m.trimmed "id")
    sources := field (cmakeFields m) "sources"
    depends := (cmakeFields m).get? "depends".toList }, ?_, ?_⟩
  · refine ⟨fun f hf => get?_cmakeFields_ne_none.mpr (hcomplete f hf),
      ?_, ?_, ?_, ?_, ?_, ?_, ?_, ?_, ?_, rfl⟩
    · rwa [field_cmakeFields]
    · rwa [field_cmakeFields]
    · rw [field_cmakeFields]
      exact hstrict.id
    · rw [field_cmakeFields, mathExpr, if_pos]
      omega
    · show 1 ≤ cmakeNumber (m.trimmed "id") ∧ cmakeNumber (m.trimmed "id") ≤ 4294967295
      omega
    · show lower (field (cmakeFields m) "default") = _ ∨ lower (field (cmakeFields m) "default") = _
      rwa [field_cmakeFields]
    · rwa [field_cmakeFields]
    · rwa [field_cmakeFields]
    · rw [field_cmakeFields]
      intro x hx
      obtain ⟨hsafe, hfile⟩ := hfiles x hx
      obtain ⟨hne, htilde⟩ := hitems x hx
      exact ⟨hne, fun hbad => (cmakeUnsafe_iff.mp hbad).elim hsafe htilde, hfile⟩
  · rw [heq]
    refine ⟨?_, ?_, hnumber, ?_, ?_⟩
    · show field (cmakeFields m) "name" = field (parserFields m) "name"
      rw [field_cmakeFields, field_parserFields, hpyName]
    · show field (cmakeFields m) "config" = field (parserFields m) "config"
      rw [field_cmakeFields, field_parserFields, hpyConfig]
    · show listItems (field (cmakeFields m) "sources") = pyItems (field (parserFields m) "sources")
      rw [field_cmakeFields, field_parserFields, hpyItems]
    · show cmakeDependencies (field (cmakeFields m) "depends") =
        pyItems (field (parserFields m) "depends")
      rw [field_cmakeFields, field_parserFields, hplain.pyItems_eq (by decide)]
      rfl

end Agreement

end Config
end AppCore
