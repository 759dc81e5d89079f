/-
  AppCore.Lib.ArrayList

  A list in an array with a count: the entries below the count are the elements, the
  others are empty.  An element is put behind the last one, and taken out by moving
  everything behind it down by one, cell by cell.
-/

import Mathlib.Data.List.Basic
import Mathlib.Logic.Function.Basic

/-- An array whose first `count` cells are in use. -/
structure ArrayList (α : Type*) where
  entry : Nat → Option α
  count : Nat

namespace ArrayList

variable {α : Type*}

/-- No cell is in use. -/
def empty (α : Type*) : ArrayList α where
  entry := fun _ => none
  count := 0

/-- The array holds the list `l`: its elements in order, and nothing behind them. -/
structure Holds (t : ArrayList α) (l : List α) : Prop where
  count_eq : t.count = l.length
  entry_eq : ∀ i, t.entry i = l[i]?

/-- `a[count++] = x`. -/
def push (t : ArrayList α) (x : α) : ArrayList α where
  entry := Function.update t.entry t.count (some x)
  count := t.count + 1

/-- `for (; n > 0; n--, j++) a[j - 1] = a[j]`. -/
def shiftLoop (entry : Nat → Option α) (j : Nat) : Nat → Nat → Option α
  | 0 => entry
  | n + 1 => shiftLoop (Function.update entry (j - 1) (entry j)) (j + 1) n

/-- The cell `i` is taken out: the cells behind it move down, and the last one is cleared. -/
def removeAt (t : ArrayList α) (i : Nat) : ArrayList α where
  entry := Function.update (shiftLoop t.entry (i + 1) (t.count - (i + 1))) (t.count - 1) none
  count := t.count - 1

/-- Every cell in use is cleared. -/
def clear (t : ArrayList α) : ArrayList α where
  entry i := if i < t.count then none else t.entry i
  count := 0

section Rules

variable {t : ArrayList α} {l : List α} {x : α} {i : Nat}

/-- The cells in use are those of the elements. -/
theorem Holds.entry_lt (h : t.Holds l) (hi : i < t.count) : ∃ x, t.entry i = some x ∧ x ∈ l := by
  rw [h.count_eq] at hi
  exact ⟨l[i], (h.entry_eq i).trans (List.getElem?_eq_getElem hi), List.getElem_mem hi⟩

/-- The other cells are empty. -/
theorem Holds.entry_ge (h : t.Holds l) (hi : t.count ≤ i) : t.entry i = none := by
  rw [h.entry_eq, List.getElem?_eq_none (h.count_eq ▸ hi)]

theorem Holds.push (h : t.Holds l) (x : α) : (t.push x).Holds (l ++ [x]) := by
  refine ⟨?_, fun i => ?_⟩
  · show t.count + 1 = _
    rw [h.count_eq, List.length_append, List.length_singleton]
  · show Function.update t.entry t.count (some x) i = _
    rw [h.count_eq]
    by_cases hi : i = l.length
    · rw [hi, Function.update_self, List.getElem?_concat_length]
    · rw [Function.update_of_ne hi, h.entry_eq]
      rcases Nat.lt_or_gt_of_ne hi with hlt | hgt
      · rw [List.getElem?_append_left hlt]
      · rw [List.getElem?_eq_none (Nat.le_of_lt hgt), List.getElem?_eq_none]
        rw [List.length_append, List.length_singleton]
        exact hgt

/-- The loop moves `n` cells from `j + 1` on down by one. -/
theorem shiftLoop_apply (entry : Nat → Option α) (j n m : Nat) :
    shiftLoop entry (j + 1) n m = if j ≤ m ∧ m < j + n then entry (m + 1) else entry m := by
  induction n generalizing entry j with
  | zero =>
      rw [if_neg (by omega)]
      rfl
  | succ n ih =>
      rw [shiftLoop, Nat.add_sub_cancel, ih]
      -- the cell written last is `j`, the loop goes on behind it
      by_cases hm : m = j
      · subst hm
        rw [if_neg (by omega), if_pos (by omega), Function.update_self]
      · rw [Function.update_of_ne hm]
        by_cases hrange : j + 1 ≤ m ∧ m < j + 1 + n
        · have hnext : m + 1 ≠ j := by omega
          rw [if_pos hrange, if_pos (by omega), Function.update_of_ne hnext]
        · rw [if_neg hrange, if_neg (by omega)]

/-- Taking a cell out takes its element out of the list, and keeps the others in order. -/
theorem Holds.removeAt (h : t.Holds l) (hi : i < l.length) :
    (t.removeAt i).Holds (l.eraseIdx i) := by
  refine ⟨?_, fun m => ?_⟩
  · show t.count - 1 = _
    rw [List.length_eraseIdx_of_lt hi, h.count_eq]
  · show Function.update (shiftLoop t.entry (i + 1) (t.count - (i + 1))) (t.count - 1) none m = _
    rw [List.getElem?_eraseIdx, h.count_eq]
    by_cases hlast : m = l.length - 1
    · rw [hlast, Function.update_self, if_neg (by omega), List.getElem?_eq_none (by omega)]
    · rw [Function.update_of_ne hlast, shiftLoop_apply, h.entry_eq, h.entry_eq]
      by_cases hlow : m < i
      · rw [if_neg (by omega), if_pos hlow]
      · rw [if_neg hlow]
        by_cases hrange : m < l.length
        · rw [if_pos (by omega)]
        · rw [if_neg (by omega), List.getElem?_eq_none (by omega),
            List.getElem?_eq_none (by omega)]

theorem Holds.clear (h : t.Holds l) : t.clear.Holds [] := by
  refine ⟨rfl, fun i => ?_⟩
  show (if i < t.count then none else t.entry i) = none
  split
  · rfl
  · rename_i hi
    exact h.entry_ge (Nat.le_of_not_lt hi)

end Rules

end ArrayList
