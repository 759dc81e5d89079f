/-
  AppCore.Config.Text

  Texts, as the two configuration tools see them: lists of characters.  Python and CMake
  differ in what they strip.
-/

import Mathlib

namespace AppCore
namespace Config

/-- A string of Python or CMake. -/
abbrev Text := List Char

instance lawfulBEqText : LawfulBEq Text := inferInstance

/-- The characters `str.strip` removes. -/
def pySpace (c : Char) : Bool :=
  c.toNat ∈ [0x09, 0x0a, 0x0b, 0x0c, 0x0d, 0x1c, 0x1d, 0x1e, 0x1f, 0x20, 0x85, 0xa0, 0x1680,
    0x2000, 0x2001, 0x2002, 0x2003, 0x2004, 0x2005, 0x2006, 0x2007, 0x2008, 0x2009, 0x200a,
    0x2028, 0x2029, 0x202f, 0x205f, 0x3000]

/-- The characters `string(STRIP)` removes. -/
def cmakeSpace (c : Char) : Bool := c.toNat ∈ [0x09, 0x0a, 0x0b, 0x0c, 0x0d, 0x20]

/-- A character of a configuration entry. -/
def configChar (c : Char) : Bool := c.isUpper || c.isDigit || c = '_'

/-- `[A-Z][A-Z0-9_]*`. -/
def isConfigName : Text → Bool
  | [] => false
  | c :: t => c.isUpper && t.all configChar

/-- The text without what surrounds it. -/
def stripBy (space : Char → Bool) (t : Text) : Text :=
  ((t.dropWhile space).reverse.dropWhile space).reverse

/-- `str.strip`. -/
def pyStrip : Text → Text := stripBy pySpace

/-- `string(STRIP)`. -/
def cmakeStrip : Text → Text := stripBy cmakeSpace

/-- What `string(STRIP)` leaves of the end of a line. -/
def cmakeTrim (t : Text) : Text := t.rdropWhile cmakeSpace

/-- `[a-z][a-z0-9_]*`. -/
def isModuleName : Text → Bool
  | [] => false
  | c :: t => c.isLower && t.all fun c => c.isLower || c.isDigit || c = '_'

/-- `str.lower` and `string(TOLOWER)`, as far as comparisons with ASCII letters are concerned. -/
def lower (t : Text) : Text := t.map Char.toLower

/-- `string(TOUPPER)`. -/
def upper (t : Text) : Text := t.map Char.toUpper

section Names

variable {t : Text} {c : Char}

theorem configChar_of_mem (ht : isConfigName t = true) (hc : c ∈ t) : configChar c = true := by
  cases t with
  | nil => cases hc
  | cons d t =>
      obtain ⟨hd, ht⟩ := Bool.and_eq_true_iff.mp ht
      rcases List.mem_cons.mp hc with rfl | hc
      · rw [configChar, hd]
        rfl
      · exact List.all_eq_true.mp ht c hc

theorem lt_of_configChar (h : configChar c = true) : c.toNat < 128 := by
  simp only [configChar, Char.isUpper, Char.isDigit, Bool.or_eq_true, Bool.and_eq_true,
    decide_eq_true_eq, UInt32.le_iff_toNat_le, ge_iff_le] at h
  have : c.toNat = c.val.toNat := rfl
  have : 'Z'.val.toNat = 90 := rfl
  have : '9'.val.toNat = 57 := rfl
  rcases h with h | rfl
  · omega
  · decide

/-- A character that is none of a configuration entry. -/
theorem notMem_of_isConfigName (ht : isConfigName t = true) (hc : configChar c = false) :
    c ∉ t := by
  intro hmem
  rw [configChar_of_mem ht hmem] at hc
  cases hc

end Names

section Strip

variable {space space' : Char → Bool} {t : Text} {c : Char}

/-- Python removes all that CMake removes. -/
theorem pySpace_of_cmakeSpace (h : cmakeSpace c = true) : pySpace c = true := by
  have hmem : c.toNat ∈ [0x09, 0x0a, 0x0b, 0x0c, 0x0d, 0x20] := of_decide_eq_true h
  simp only [List.mem_cons, List.not_mem_nil, or_false] at hmem
  rcases hmem with hc | hc | hc | hc | hc | hc <;> simp [pySpace, hc]

/-- A text is stripped if neither of its ends is a space. -/
theorem stripBy_eq_self (hhead : ∀ c, t.head? = some c → space c = false)
    (hlast : ∀ c, t.getLast? = some c → space c = false) : stripBy space t = t := by
  have hdrop : ∀ l : Text, (∀ c, l.head? = some c → space c = false) →
      l.dropWhile space = l := by
    intro l hl
    cases l with
    | nil => rfl
    | cons c l => rw [List.dropWhile_cons_of_neg (by simp [hl c rfl])]
  unfold stripBy
  rw [hdrop t hhead, hdrop t.reverse, List.reverse_reverse]
  intro c hc
  rw [List.head?_reverse] at hc
  exact hlast c hc

theorem rdropWhile_cons : (c :: t).rdropWhile space =
    if space c = true ∧ t.rdropWhile space = [] then [] else c :: t.rdropWhile space := by
  unfold List.rdropWhile
  rw [List.reverse_cons, List.dropWhile_append]
  by_cases h : t.reverse.dropWhile space = []
  · cases hc : space c <;> simp [h, hc]
  · simp [h]

/-- What comes before a character that is not dropped stays. -/
theorem rdropWhile_append {a : Text} (ha : space c = false) :
    (a ++ c :: t).rdropWhile space = a ++ c :: t.rdropWhile space := by
  induction a with
  | nil =>
      rw [List.nil_append, List.nil_append, rdropWhile_cons, if_neg]
      exact fun h => Bool.false_ne_true (ha ▸ h.1)
  | cons d a ih =>
      rw [List.cons_append, List.cons_append, rdropWhile_cons, ih, if_neg]
      exact fun h => List.cons_ne_nil _ _ (List.append_eq_nil_iff.mp h.2).2

/-- The two ends can be stripped in either order. -/
theorem stripBy_eq_dropWhile : stripBy space t = (t.rdropWhile space).dropWhile space := by
  show (t.dropWhile space).rdropWhile space = (t.rdropWhile space).dropWhile space
  induction t with
  | nil => rfl
  | cons c t ih =>
      rw [rdropWhile_cons]
      cases hc : space c with
      | true =>
          rw [List.dropWhile_cons_of_pos hc, ih]
          split
          · rename_i h
            rw [h.2]
          · rw [List.dropWhile_cons_of_pos hc]
      | false =>
          rw [List.dropWhile_cons_of_neg (by simp [hc]), rdropWhile_cons, hc,
            if_neg (by simp), List.dropWhile_cons_of_neg (by simp [hc])]

/-- A character that is no space is not stripped. -/
theorem mem_stripBy (hc : c ∈ t) (hspace : space c = false) : c ∈ stripBy space t := by
  have hmem : c ∈ t.rdropWhile space := by
    obtain ⟨a, b, rfl⟩ := List.append_of_mem hc
    rw [rdropWhile_append hspace]
    simp
  rw [stripBy_eq_dropWhile]
  rw [← List.takeWhile_append_dropWhile (p := space) (l := t.rdropWhile space),
    List.mem_append] at hmem
  rcases hmem with hmem | hmem
  · have hcontra := List.mem_takeWhile_imp hmem
    rw [hspace] at hcontra
    cases hcontra
  · exact hmem

theorem stripBy_eq_nil_iff : stripBy space t = [] ↔ t.rdropWhile space = [] := by
  constructor
  · intro h
    rw [List.rdropWhile_eq_nil_iff]
    intro c hc
    by_contra hnot
    have hmem := mem_stripBy hc (by simpa using hnot)
    rw [h] at hmem
    cases hmem
  · intro h
    rw [stripBy_eq_dropWhile, h]
    rfl

theorem head?_dropWhile (h : (t.dropWhile space).head? = some c) : space c = false := by
  induction t with
  | nil => cases h
  | cons d t ih =>
      cases hd : space d with
      | true =>
          rw [List.dropWhile_cons_of_pos hd] at h
          exact ih h
      | false =>
          rw [List.dropWhile_cons_of_neg (by simp [hd])] at h
          exact Option.some.inj h ▸ hd

theorem stripBy_idem : stripBy space (stripBy space t) = stripBy space t := by
  apply stripBy_eq_self
  · rw [stripBy_eq_dropWhile]
    exact fun c hc => head?_dropWhile hc
  · intro c hc
    unfold stripBy at hc
    rw [List.getLast?_reverse] at hc
    exact head?_dropWhile hc

/-- A text without leading spaces. -/
theorem stripBy_eq_rdropWhile (h : ∀ c, (t.rdropWhile space).head? = some c → space c = false) :
    stripBy space t = t.rdropWhile space := by
  rw [stripBy_eq_dropWhile]
  cases hs : t.rdropWhile space with
  | nil => rfl
  | cons c l =>
      rw [List.dropWhile_cons_of_neg]
      rw [h c (hs ▸ rfl)]
      exact Bool.false_ne_true

theorem stripBy_congr (h : ∀ c ∈ t, space c = space' c) : stripBy space t = stripBy space' t := by
  have hdrop : ∀ l : Text, (∀ c ∈ l, space c = space' c) →
      l.dropWhile space = l.dropWhile space' := by
    intro l
    induction l with
    | nil => exact fun _ => rfl
    | cons c l ih =>
        intro hl
        rw [List.dropWhile_cons, List.dropWhile_cons, hl c List.mem_cons_self,
          ih fun d hd => hl d (List.mem_cons_of_mem _ hd)]
  unfold stripBy
  rw [hdrop t h, hdrop _ fun c hc => h c ?_]
  exact List.dropWhile_subset _ (List.mem_reverse.mp hc)

/-- Stripping less before does not matter. -/
theorem stripBy_stripBy (h : ∀ c, space c = true → space' c = true) :
    stripBy space' (stripBy space t) = stripBy space' t := by
  have hdrop : ∀ l : Text, (l.dropWhile space).dropWhile space' = l.dropWhile space' := by
    intro l
    induction l with
    | nil => rfl
    | cons c l ih =>
        cases hc : space c with
        | false => rw [List.dropWhile_cons_of_neg (by simp [hc])]
        | true =>
            rw [List.dropWhile_cons_of_pos hc, List.dropWhile_cons_of_pos (h c hc)]
            exact ih
  have hrdrop : (t.rdropWhile space).rdropWhile space' = t.rdropWhile space' := by
    unfold List.rdropWhile
    rw [List.reverse_reverse, hdrop]
  calc stripBy space' (stripBy space t)
      = ((stripBy space t).dropWhile space').rdropWhile space' := rfl
    _ = ((t.rdropWhile space).dropWhile space').rdropWhile space' := by
        rw [stripBy_eq_dropWhile, hdrop]
    _ = ((t.rdropWhile space).rdropWhile space').dropWhile space' := stripBy_eq_dropWhile
    _ = stripBy space' t := by rw [hrdrop, stripBy_eq_dropWhile]

/-- Leading spaces do not count for the stripped items of a list. -/
theorem map_stripBy_splitOn {sep : Char} (hsep : space sep = false) :
    ((t.dropWhile space).splitOn sep).map (stripBy space) =
      (t.splitOn sep).map (stripBy space) := by
  induction t with
  | nil => rfl
  | cons c t ih =>
      cases hc : space c with
      | false => rw [List.dropWhile_cons_of_neg (by simp [hc])]
      | true =>
          have hne : (c == sep) = false := by
            rw [beq_eq_false_iff_ne]
            rintro rfl
            rw [hsep] at hc
            cases hc
          rw [List.dropWhile_cons_of_pos hc, ih, List.splitOn_cons_eq_if_modifyHead, hne]
          cases hsplit : t.splitOn sep with
          | nil => rfl
          | cons x l =>
              show _ = stripBy space (c :: x) :: l.map (stripBy space)
              unfold stripBy
              rw [List.dropWhile_cons_of_pos hc]
              rfl

end Strip

/-! ## Lines -/

/-- The universal newlines of a text file: `\r` and `\r\n` are line ends too. -/
def universalNewlines : Text → Text
  | [] => []
  | c :: t =>
    if c = '\r' then
      if t.head? = some '\n' then universalNewlines t else '\n' :: universalNewlines t
    else c :: universalNewlines t

/-- The lines of a text file, without the line ends. -/
def pyLines (t : Text) : List Text :=
  let lines := (universalNewlines t).splitOn '\n'
  if lines.getLast? = some [] then lines.dropLast else lines

/-- Lines, each with a line end. -/
def unlines (l : List Text) : Text := l.flatMap (· ++ ['\n'])

section Lines

variable {l : List Text}

theorem universalNewlines_eq_self {t : Text} (h : '\r' ∉ t) : universalNewlines t = t := by
  induction t with
  | nil => rfl
  | cons c t ih =>
      have hc : c ≠ '\r' := by
        rintro rfl
        exact h List.mem_cons_self
      rw [universalNewlines, if_neg hc, ih fun hmem => h (List.mem_cons_of_mem _ hmem)]

theorem notMem_unlines {c : Char} (hc : c ≠ '\n') (h : ∀ x ∈ l, c ∉ x) : c ∉ unlines l := by
  intro hmem
  obtain ⟨x, hx, hmem⟩ := List.mem_flatMap.mp hmem
  rcases List.mem_append.mp hmem with hmem | hmem
  · exact h x hx hmem
  · exact hc (List.mem_singleton.mp hmem)

theorem unlines_eq_intercalate : unlines l = ['\n'].intercalate (l ++ [[]]) := by
  induction l with
  | nil => rfl
  | cons x l ih =>
      rw [List.cons_append, List.intercalate_cons_of_ne_nil (by simp), ← ih]
      rfl

/-- A file written line by line is read back as these lines. -/
theorem pyLines_unlines (hnl : ∀ x ∈ l, '\n' ∉ x) (hcr : ∀ x ∈ l, '\r' ∉ x) :
    pyLines (unlines l) = l := by
  have hitems : ∀ x ∈ l ++ [[]], '\n' ∉ x := by
    intro x hx
    rcases List.mem_append.mp hx with hx | hx
    · exact hnl x hx
    · obtain rfl := List.mem_singleton.mp hx
      exact List.not_mem_nil
  have hsplit : (universalNewlines (unlines l)).splitOn '\n' = l ++ [[]] := by
    rw [universalNewlines_eq_self (notMem_unlines (by decide) hcr), unlines_eq_intercalate,
      List.splitOn_intercalate _ hitems (by simp)]
  unfold pyLines
  rw [hsplit]
  simp

end Lines

end Config
end AppCore
