/-
  AppCore.Lib.CmakeList

  Lists as CMake stores them: one text with the elements separated by semicolons.  A semicolon
  after a backslash and one inside of square brackets do not separate, so not every list of
  texts comes back from the text it is stored in.
-/

import Mathlib.Data.List.Basic

namespace CmakeList

abbrev Text := List Char

/-- The elements of a stored list, with the current element so far and how many brackets are
    open in it. -/
def expandFrom : Text → Text → Int → List Text
  | [], item, _ => [item]
  | c :: t, item, nesting =>
    if c = ';' then
      if item.getLast? = some '\\' then expandFrom t (item.dropLast ++ [';']) nesting
      else if nesting = 0 then item :: expandFrom t [] 0
      else expandFrom t (item ++ [';']) nesting
    else if c = '[' then expandFrom t (item ++ [c]) (nesting + 1)
    else if c = ']' then expandFrom t (item ++ [c]) (nesting - 1)
    else expandFrom t (item ++ [c]) nesting

/-- What `foreach(IN LISTS)` goes through: the empty elements too, and nothing for an empty
    variable. -/
def elements (t : Text) : List Text := if t = [] then [] else expandFrom t [] 0

/-- `file(STRINGS)` puts a backslash before each semicolon of a line. -/
def escape (t : Text) : Text := t.flatMap fun c => if c = ';' then ['\\', ';'] else [c]

/-- The list `file(STRINGS)` makes of lines. -/
def ofStrings (l : List Text) : Text := [';'].intercalate (l.map escape)

/-- The lines `file(STRINGS)` finds, with the current line so far.  A carriage return is left
    out, and a character that is not kept ends a line that is not empty. -/
def stringsFrom (keep : Char → Bool) : Text → Text → List Text
  | [], line => if line = [] then [] else [line]
  | c :: t, line =>
    if c = '\r' then stringsFrom keep t line
    else if c = '\n' then line :: stringsFrom keep t []
    else if keep c = true then stringsFrom keep t (line ++ [c])
    else if line = [] then stringsFrom keep t []
    else line :: stringsFrom keep t []

/-- The brackets a text leaves open. -/
def balance (t : Text) : Int := (t.count '[' : Int) - t.count ']'

/-- A text that stays one element: its brackets are balanced, and it does not end with a
    backslash, which would take the next separator away. -/
def Whole (t : Text) : Prop := balance t = 0 ∧ t.getLast? ≠ some '\\'

instance (t : Text) : Decidable (Whole t) := inferInstanceAs (Decidable (_ ∧ _))

/-- A text without brackets and backslashes. -/
theorem whole_of_notMem {t : Text} (hopen : '[' ∉ t) (hclose : ']' ∉ t) (hback : '\\' ∉ t) :
    Whole t := by
  refine ⟨?_, fun hlast => hback (List.mem_of_getLast? hlast)⟩
  rw [balance, List.count_eq_zero.mpr hopen, List.count_eq_zero.mpr hclose]
  rfl

section Escape

variable {t item : Text} {n : Int}

@[simp] theorem escape_nil : escape [] = [] := rfl

theorem escape_cons (c : Char) (l : Text) :
    escape (c :: l) = (if c = ';' then ['\\', ';'] else [c]) ++ escape l := rfl

theorem escape_eq_self {l : Text} (h : ';' ∉ l) : escape l = l := by
  induction l with
  | nil => rfl
  | cons c l ih =>
      have hc : c ≠ ';' := by
        rintro rfl
        exact h List.mem_cons_self
      rw [escape_cons, if_neg hc, ih fun hmem => h (List.mem_cons_of_mem _ hmem)]
      rfl

theorem balance_cons (c : Char) (l : Text) :
    balance (c :: l) = (if c = '[' then 1 else if c = ']' then -1 else 0) + balance l := by
  unfold balance
  rw [List.count_cons, List.count_cons]
  by_cases h : c = '['
  · subst h
    simp
    omega
  · by_cases h' : c = ']'
    · subst h'
      simp
      omega
    · simp [h, h']

/-- A line that was escaped is read back, whatever it contains. -/
theorem expandFrom_escape (l : Text) :
    expandFrom (escape l ++ t) item n = expandFrom t (item ++ l) (n + balance l) := by
  induction l generalizing item n with
  | nil => simp [balance]
  | cons c l ih =>
      rw [escape_cons, balance_cons]
      by_cases hsemi : c = ';'
      · -- the backslash is taken back at the semicolon
        subst hsemi
        show expandFrom ('\\' :: ';' :: (escape l ++ t)) item n = _
        rw [expandFrom, if_neg (by decide), if_neg (by decide), if_neg (by decide), expandFrom,
          if_pos rfl, if_pos (by simp), ih]
        simp
      · rw [if_neg hsemi]
        show expandFrom (c :: (escape l ++ t)) item n = _
        rw [expandFrom, if_neg hsemi]
        by_cases hopen : c = '['
        · subst hopen
          rw [if_pos rfl, if_pos rfl, ih, List.append_assoc, Int.add_assoc]
          rfl
        · rw [if_neg hopen, if_neg hopen]
          by_cases hclose : c = ']'
          · subst hclose
            rw [if_pos rfl, if_pos rfl, ih, List.append_assoc]
            show expandFrom t (item ++ ']' :: l) (n - 1 + balance l) = _
            congr 1
            omega
          · rw [if_neg hclose, if_neg hclose, ih, List.append_assoc, Int.zero_add]
            rfl

/-- What follows the first element. -/
def more (l : List Text) : Text := l.flatMap fun x => ';' :: escape x

theorem ofStrings_cons (x : Text) (l : List Text) : ofStrings (x :: l) = escape x ++ more l := by
  unfold ofStrings more
  induction l generalizing x with
  | nil => simp
  | cons y l ih =>
      rw [List.map_cons, List.map_cons, List.intercalate_cons_cons, List.flatMap_cons,
        ← List.map_cons, ih]
      simp

/-- The separator after a whole element. -/
theorem expandFrom_more_cons {y : Text} {l : List Text} (h : Whole item) :
    expandFrom (more (y :: l)) item 0 = item :: expandFrom (escape y ++ more l) [] 0 := by
  show expandFrom (';' :: (escape y ++ more l)) item 0 = _
  rw [expandFrom, if_pos rfl, if_neg h.2, if_pos rfl]

/-- Lines that are whole come back as they were stored. -/
theorem elements_ofStrings {l : List Text} (h : ∀ x ∈ l, Whole x) (hne : l ≠ [[]]) :
    elements (ofStrings l) = l := by
  have hexpand : ∀ (l : List Text) (x : Text), (∀ y ∈ x :: l, Whole y) →
      expandFrom (escape x ++ more l) [] 0 = x :: l := by
    intro l
    induction l with
    | nil =>
        intro x hx
        rw [expandFrom_escape, List.nil_append]
        rfl
    | cons y l ih =>
        intro x hx
        have hwhole : Whole x := hx x List.mem_cons_self
        rw [expandFrom_escape, List.nil_append, hwhole.1, Int.add_zero,
          expandFrom_more_cons hwhole, ih y fun z hz => hx z (List.mem_cons_of_mem _ hz)]
  cases l with
  | nil => rfl
  | cons x l =>
      have htext : ofStrings (x :: l) ≠ [] := by
        rw [ofStrings_cons]
        intro hnil
        obtain ⟨hx, hl⟩ := List.append_eq_nil_iff.mp hnil
        cases l with
        | cons y l => cases hl
        | nil =>
            cases x with
            | nil => exact hne rfl
            | cons c x =>
                rw [escape_cons] at hx
                split at hx <;> cases hx
      rw [elements, if_neg htext, ofStrings_cons, hexpand l x h]

/-- Lines of characters that are kept are found as they are. -/
theorem stringsFrom_lines {keep : Char → Bool} {l : List Text} (hcr : ∀ x ∈ l, '\r' ∉ x)
    (hnl : ∀ x ∈ l, '\n' ∉ x) (hkeep : ∀ x ∈ l, ∀ c ∈ x, keep c = true) :
    stringsFrom keep (l.flatMap (· ++ ['\n'])) [] = l := by
  have hline : ∀ (x : Text) (line t : Text), '\r' ∉ x → '\n' ∉ x → (∀ c ∈ x, keep c = true) →
      stringsFrom keep (x ++ '\n' :: t) line = (line ++ x) :: stringsFrom keep t [] := by
    intro x
    induction x with
    | nil =>
        intro line t _ _ _
        rw [List.nil_append, stringsFrom, if_neg (by decide), if_pos rfl, List.append_nil]
    | cons c x ih =>
        intro line t hcr hnl hkeep
        have hc : c ≠ '\r' := by
          rintro rfl
          exact hcr List.mem_cons_self
        have hc' : c ≠ '\n' := by
          rintro rfl
          exact hnl List.mem_cons_self
        rw [List.cons_append, stringsFrom, if_neg hc, if_neg hc',
          if_pos (hkeep c List.mem_cons_self), ih _ _ (fun h => hcr (List.mem_cons_of_mem _ h))
            (fun h => hnl (List.mem_cons_of_mem _ h))
            (fun c h => hkeep c (List.mem_cons_of_mem _ h)), List.append_assoc]
        rfl
  induction l with
  | nil => rfl
  | cons x l ih =>
      rw [List.flatMap_cons, List.append_assoc, List.singleton_append,
        hline x _ _ (hcr x List.mem_cons_self) (hnl x List.mem_cons_self)
          (hkeep x List.mem_cons_self), List.nil_append,
        ih (fun y hy => hcr y (List.mem_cons_of_mem _ hy))
          (fun y hy => hnl y (List.mem_cons_of_mem _ hy))
          (fun y hy => hkeep y (List.mem_cons_of_mem _ hy))]

/-- The element being read: a line, or what starts with a line that is not whole and goes on
    behind a semicolon. -/
inductive Started (lines : List Text) : Text → Int → Prop
  | line {x : Text} : x ∈ lines → Started lines x (balance x)
  | joined {x s : Text} {n : Int} : x ∈ lines → ¬ Whole x → ';' ∈ s →
      Started lines (x.dropLast ++ s) n

theorem dropLast_append_getLast? (x : Text) : x.dropLast ++ x.getLast?.toList = x := by
  cases h : x.getLast? with
  | none =>
      rw [List.getLast?_eq_none_iff.mp h]
      rfl
  | some c => exact List.dropLast_append_getLast? c h

/-- A line behind a separator that was taken away. -/
theorem Started.escaped {lines : List Text} (h : Started lines item n)
    (hlast : item.getLast? = some '\\') (y : Text) (n' : Int) :
    Started lines (item.dropLast ++ [';'] ++ y) n' := by
  cases h with
  | line hx =>
      rw [List.append_assoc]
      exact Started.joined hx (fun hwhole => hwhole.2 hlast) (by simp)
  | @joined x s _ hx hnot hs =>
      have hne : s ≠ [] := List.ne_nil_of_mem hs
      rw [List.dropLast_append_of_ne_nil hne, List.append_assoc, List.append_assoc]
      exact Started.joined hx hnot (by simp)

/-- A line behind a separator in brackets. -/
theorem Started.nested {lines : List Text} (h : Started lines item n) (hn : n ≠ 0) (y : Text)
    (n' : Int) : Started lines (item ++ [';'] ++ y) n' := by
  cases h with
  | @line x hx =>
      have hsplit : item ++ [';'] ++ y =
          item.dropLast ++ (item.getLast?.toList ++ ([';'] ++ y)) := by
        rw [← List.append_assoc, dropLast_append_getLast?, List.append_assoc]
      rw [hsplit]
      exact Started.joined hx (fun hwhole => hn hwhole.1) (by simp)
  | @joined x s _ hx hnot hs =>
      rw [List.append_assoc, List.append_assoc]
      exact Started.joined hx hnot (List.mem_append_left _ hs)

/-- Where an element comes from. -/
def LineOrJoined (lines : List Text) (e : Text) : Prop := ∃ n, Started lines e n

/-- Every element of stored lines is a line, or it starts with a line that is not whole. -/
theorem lineOrJoined_of_mem {lines : List Text} {e : Text} (he : e ∈ elements (ofStrings lines)) :
    LineOrJoined lines e := by
  have hexpand : ∀ (l : List Text) (item : Text) (n : Int), l ⊆ lines → Started lines item n →
      ∀ e ∈ expandFrom (more l) item n, LineOrJoined lines e := by
    intro l
    induction l with
    | nil =>
        intro item n _ hstarted e he
        obtain rfl : e = item := List.mem_singleton.mp he
        exact ⟨n, hstarted⟩
    | cons y l ih =>
        intro item n hsub hstarted
        have hsub' : l ⊆ lines := fun z hz => hsub (List.mem_cons_of_mem _ hz)
        show ∀ e ∈ expandFrom (';' :: (escape y ++ more l)) item n, _
        rw [expandFrom, if_pos rfl]
        by_cases hlast : item.getLast? = some '\\'
        · rw [if_pos hlast, expandFrom_escape]
          exact ih _ _ hsub' (hstarted.escaped hlast y _)
        rw [if_neg hlast]
        by_cases hn : n = 0
        · -- the element ends here, and the next one starts with `y`
          rw [if_pos hn, expandFrom_escape, List.nil_append, Int.zero_add]
          exact List.forall_mem_cons.mpr ⟨⟨n, hstarted⟩,
            ih _ _ hsub' (Started.line (hsub List.mem_cons_self))⟩
        · rw [if_neg hn, expandFrom_escape]
          exact ih _ _ hsub' (hstarted.nested hn y _)
  unfold elements at he
  split at he
  · cases he
  cases lines with
  | nil => exact absurd rfl ‹_›
  | cons x l =>
      rw [ofStrings_cons, expandFrom_escape, List.nil_append, Int.zero_add] at he
      exact hexpand l x _ (fun z hz => List.mem_cons_of_mem _ hz)
        (Started.line List.mem_cons_self) e he

theorem LineOrJoined.cases {lines : List Text} {e : Text} (h : LineOrJoined lines e) :
    e ∈ lines ∨ ∃ x ∈ lines, ¬ Whole x ∧ ∃ s, ';' ∈ s ∧ e = x.dropLast ++ s := by
  obtain ⟨n, hstarted⟩ := h
  cases hstarted with
  | line hx => exact Or.inl hx
  | @joined x s _ hx hnot hs => exact Or.inr ⟨x, hx, hnot, s, hs, rfl⟩

end Escape

/-! ## Lists written with commas -/

/-- `string(REPLACE "," ";")`. -/
def ofCommas (t : Text) : Text := t.map fun c => if c = ',' then ';' else c

section Commas

theorem notMem_of_mem_splitOn {t x : Text} {a : Char} (hx : x ∈ t.splitOn a) : a ∉ x := by
  induction t generalizing x with
  | nil =>
      rw [List.splitOn_nil] at hx
      obtain rfl := List.mem_singleton.mp hx
      exact List.not_mem_nil
  | cons c t ih =>
      rw [List.splitOn_cons_eq_if_modifyHead] at hx
      split at hx
      · rcases List.mem_cons.mp hx with rfl | hx
        · exact List.not_mem_nil
        · exact ih hx
      · rename_i hc
        cases hsplit : t.splitOn a with
        | nil => exact absurd hsplit (List.splitOn_ne_nil a t)
        | cons y l =>
            rw [hsplit] at hx ih
            rcases List.mem_cons.mp hx with rfl | hx
            · intro hmem
              rcases List.mem_cons.mp hmem with rfl | hmem
              · exact hc (beq_self_eq_true _)
              · exact ih List.mem_cons_self hmem
            · exact ih (List.mem_cons_of_mem _ hx)

theorem mem_of_mem_splitOn {t x : Text} {a c : Char} (hx : x ∈ t.splitOn a) (hc : c ∈ x) :
    c ∈ t := by
  induction t generalizing x with
  | nil =>
      rw [List.splitOn_nil] at hx
      obtain rfl := List.mem_singleton.mp hx
      cases hc
  | cons d t ih =>
      rw [List.splitOn_cons_eq_if_modifyHead] at hx
      split at hx
      · rcases List.mem_cons.mp hx with rfl | hx
        · cases hc
        · exact List.mem_cons_of_mem _ (ih hx hc)
      · cases hsplit : t.splitOn a with
        | nil => exact absurd hsplit (List.splitOn_ne_nil a t)
        | cons y l =>
            rw [hsplit] at hx ih
            rcases List.mem_cons.mp hx with rfl | hx
            · rcases List.mem_cons.mp hc with rfl | hc
              · exact List.mem_cons_self
              · exact List.mem_cons_of_mem _ (ih List.mem_cons_self hc)
            · exact List.mem_cons_of_mem _ (ih (List.mem_cons_of_mem _ hx) hc)

theorem ofCommas_eq_self {t : Text} (h : ',' ∉ t) : ofCommas t = t := by
  have hid : ∀ c ∈ t, (if c = ',' then ';' else c) = c := by
    intro c hc
    rw [if_neg]
    rintro rfl
    exact h hc
  exact (List.map_congr_left hid).trans (List.map_id t)

theorem ofCommas_intercalate {l : List Text} (h : ∀ x ∈ l, ',' ∉ x) :
    ofCommas ([','].intercalate l) = [';'].intercalate l := by
  induction l with
  | nil => rfl
  | cons x l ih =>
      have hx := ofCommas_eq_self (h x List.mem_cons_self)
      have hl : ∀ y ∈ l, ',' ∉ y := fun y hy => h y (List.mem_cons_of_mem _ hy)
      cases l with
      | nil => simpa using hx
      | cons y l =>
          rw [List.intercalate_cons_cons, List.intercalate_cons_cons, ← ih hl]
          unfold ofCommas at hx ⊢
          rw [List.map_append, List.map_append, hx]
          rfl

/-- The items of a text with commas, when they are whole and have no semicolons. -/
theorem elements_ofCommas {t : Text} (ht : t ≠ [])
    (h : ∀ x ∈ t.splitOn ',', Whole x ∧ ';' ∉ x) : elements (ofCommas t) = t.splitOn ',' := by
  have hsame : (t.splitOn ',').map escape = t.splitOn ',' := by
    have hid : ∀ x ∈ t.splitOn ',', escape x = x := fun x hx => escape_eq_self (h x hx).2
    exact (List.map_congr_left hid).trans (List.map_id _)
  have htext : ofCommas t = ofStrings (t.splitOn ',') := by
    rw [ofStrings, hsame, ← ofCommas_intercalate fun x hx => notMem_of_mem_splitOn hx,
      List.intercalate_splitOn]
  have hne : t.splitOn ',' ≠ [[]] := by
    intro hnil
    have hjoin : [','].intercalate (t.splitOn ',') = t := List.intercalate_splitOn ','
    rw [hnil] at hjoin
    exact ht hjoin.symm
  rw [htext]
  exact elements_ofStrings (fun x hx => (h x hx).1) hne

end Commas

end CmakeList
