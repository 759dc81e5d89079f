/-
  AppCore.Lib.Dict

  Dictionaries as lists of their entries, in the order in which the keys were inserted.
-/

import Mathlib.Data.List.Nodup

/-- A dictionary. -/
abbrev Dict (κ β : Type*) := List (κ × β)

namespace Dict

variable {κ β : Type*} [DecidableEq κ]

/-- The value of a key. -/
def get? (d : Dict κ β) (k : κ) : Option β := (d.find? fun e => e.1 = k).map (·.2)

/-- Set the value of a key; a new key comes last. -/
def insert (d : Dict κ β) (k : κ) (b : β) : Dict κ β :=
  if k ∈ d.map (·.1) then d.map fun e => if e.1 = k then (k, b) else e else d ++ [(k, b)]

/-- The dictionary of a list of entries, a later one replacing an earlier one. -/
def ofList (l : List (κ × β)) : Dict κ β := l.foldl (fun d e => d.insert e.1 e.2) []

variable {d : Dict κ β} {k k' : κ} {b : β}

@[simp] theorem get?_nil : get? ([] : Dict κ β) k = none := rfl

theorem get?_cons (e : κ × β) : get? (e :: d) k = if e.1 = k then some e.2 else get? d k := by
  unfold get?
  by_cases h : e.1 = k
  · rw [if_pos h, List.find?_cons_of_pos (by simpa using h)]
    rfl
  · rw [if_neg h, List.find?_cons_of_neg (by simpa using h)]

theorem get?_eq_none_iff : d.get? k = none ↔ k ∉ d.map (·.1) := by
  unfold get?
  rw [Option.map_eq_none_iff, List.find?_eq_none]
  simp only [decide_eq_true_eq, List.mem_map, not_exists, not_and]

theorem mem_of_get?_eq_some (h : d.get? k = some b) : (k, b) ∈ d := by
  unfold get? at h
  obtain ⟨e, he, rfl⟩ := Option.map_eq_some_iff.mp h
  obtain rfl : e.1 = k := by simpa using List.find?_some he
  exact List.mem_of_find?_eq_some he

theorem get?_map {γ : Type*} (g : β → γ) :
    get? (d.map fun e => (e.1, g e.2)) k = (get? d k).map g := by
  induction d with
  | nil => rfl
  | cons e d ih =>
      rw [List.map_cons, get?_cons, get?_cons, ih]
      split <;> rfl

theorem get?_append (d' : Dict κ β) : get? (d ++ d') k = (get? d k).or (get? d' k) := by
  induction d with
  | nil => rfl
  | cons e d ih =>
      rw [List.cons_append, get?_cons, get?_cons, ih]
      split <;> rfl

/-- The value an insertion sets. -/
theorem get?_insert_self : (d.insert k b).get? k = some b := by
  unfold insert
  split
  · rename_i hmem
    induction d with
    | nil => cases hmem
    | cons e d ih =>
        rw [List.map_cons, get?_cons]
        by_cases he : e.1 = k
        · rw [if_pos he, if_pos rfl]
        · rw [if_neg he, if_neg he]
          apply ih
          rcases List.mem_cons.mp hmem with heq | hmem
          · exact absurd heq.symm he
          · exact hmem
  · rename_i hmem
    rw [get?_append, get?_eq_none_iff.mpr hmem, get?_cons, if_pos rfl]
    rfl

/-- The values an insertion leaves. -/
theorem get?_insert_of_ne (h : k' ≠ k) : (d.insert k b).get? k' = d.get? k' := by
  unfold insert
  split
  · rename_i hmem
    clear hmem
    induction d with
    | nil => rfl
    | cons e d ih =>
        rw [List.map_cons, get?_cons, get?_cons, ih]
        by_cases he : e.1 = k
        · rw [if_pos he, if_neg (Ne.symm h), if_neg fun heq => h (heq.symm.trans he)]
        · rw [if_neg he]
  · rw [get?_append, get?_cons, if_neg (Ne.symm h)]
    exact Option.or_none

theorem insert_of_notMem (h : k ∉ d.map (·.1)) : d.insert k b = d ++ [(k, b)] := if_neg h

/-- Entries with different keys are all kept, in their order. -/
theorem ofList_eq_self {l : List (κ × β)} (h : (l.map (·.1)).Nodup) : ofList l = l := by
  have hfold : ∀ (l acc : List (κ × β)), ((acc ++ l).map (·.1)).Nodup →
      l.foldl (fun d e => Dict.insert d e.1 e.2) acc = acc ++ l := by
    intro l
    induction l with
    | nil => exact fun acc _ => (List.append_nil acc).symm
    | cons e l ih =>
        intro acc hnd
        have hnew : e.1 ∉ acc.map (·.1) := by
          rw [List.map_append, List.nodup_append] at hnd
          intro hmem
          exact hnd.2.2 e.1 hmem e.1 List.mem_cons_self rfl
        rw [List.foldl_cons, insert_of_notMem hnew, ih]
        · rw [List.append_assoc]
          rfl
        · rw [List.append_assoc]
          exact hnd
  exact hfold l [] h

/-- With different keys, the value of a key is that of its only entry. -/
theorem get?_eq_some_of_mem (h : (d.map (·.1)).Nodup) (hmem : (k, b) ∈ d) :
    d.get? k = some b := by
  induction d with
  | nil => cases hmem
  | cons e d ih =>
      rw [get?_cons]
      rw [List.map_cons, List.nodup_cons] at h
      rcases List.mem_cons.mp hmem with rfl | hmem
      · rw [if_pos rfl]
      · rw [if_neg, ih h.2 hmem]
        rintro rfl
        exact h.1 (List.mem_map_of_mem (f := (·.1)) hmem)

end Dict
