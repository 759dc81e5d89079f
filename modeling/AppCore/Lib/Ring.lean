/-
  AppCore.Lib.Ring

  Ring buffers: the list held by `count` cells of an array of `n` cells, read from
  `head` with wrap-around, and what a push behind it and a pop in front of it do.
-/

import Mathlib.Data.Nat.ModEq
import Mathlib.Data.List.Range
import Mathlib.Logic.Function.Basic

namespace Ring

variable {α : Type*} {cells : Nat → α} {n head count : Nat}

/-- The `count` cells from `head` on, of an array of `n` cells. -/
def window (cells : Nat → α) (n head count : Nat) : List α :=
  (List.range count).map fun i => cells ((head + i) % n)

@[simp] theorem length_window : (window cells n head count).length = count := by
  simp [window]

@[simp] theorem window_zero : window cells n head 0 = [] := rfl

/-- Different offsets below the capacity are different cells. -/
theorem index_injective {i j : Nat} (hi : i < n) (hj : j < n)
    (h : (head + i) % n = (head + j) % n) : i = j := by
  have hmod : i ≡ j [MOD n] := Nat.ModEq.add_left_cancel' head h
  exact Nat.ModEq.eq_of_lt_of_lt hmod hi hj

/-- Writing the cell behind a window that is not full appends to it. -/
theorem window_push (hcount : count < n) (x : α) :
    window (Function.update cells ((head + count) % n) x) n head (count + 1) =
      window cells n head count ++ [x] := by
  have hold : ∀ i ∈ List.range count,
      Function.update cells ((head + count) % n) x ((head + i) % n) =
        cells ((head + i) % n) := by
    intro i hi
    have hi : i < count := List.mem_range.mp hi
    apply Function.update_of_ne
    intro heq
    have := index_injective (by omega) hcount heq
    omega
  unfold window
  rw [List.range_succ, List.map_append, List.map_congr_left hold]
  simp

/-- A window that is not empty starts with the cell at `head`. -/
theorem window_cons (hcount : 0 < count) :
    window cells n head count =
      cells (head % n) :: window cells n ((head + 1) % n) (count - 1) := by
  obtain ⟨c, rfl⟩ : ∃ c, count = c + 1 := ⟨count - 1, by omega⟩
  unfold window
  rw [List.range_succ_eq_map, List.map_cons, List.map_map, Nat.add_sub_cancel, Nat.add_zero]
  congr 1
  apply List.map_congr_left
  intro i _
  show cells ((head + (i + 1)) % n) = cells (((head + 1) % n + i) % n)
  rw [Nat.mod_add_mod, Nat.add_assoc, Nat.add_comm 1 i]

/-- The cell in front of the rest of a window is not part of it. -/
theorem window_pop (hhead : head < n) (hcount : 0 < count) (hle : count ≤ n) (x : α) :
    window (Function.update cells head x) n ((head + 1) % n) (count - 1) =
      window cells n ((head + 1) % n) (count - 1) := by
  unfold window
  apply List.map_congr_left
  intro i hi
  have hi : i < count - 1 := List.mem_range.mp hi
  apply Function.update_of_ne
  intro heq
  rw [Nat.mod_add_mod, Nat.add_assoc] at heq
  have hzero : (head + (1 + i)) % n = (head + 0) % n := by
    rw [heq, Nat.add_zero, Nat.mod_eq_of_lt hhead]
  have := index_injective (by omega) (by omega) hzero
  omega

/-! ## Cells that are empty or hold an element -/

/-- The cells of the window hold the elements of `l`. -/
def Holds {α : Type*} (cells : Nat → Option α) (n head count : Nat) (l : List α) : Prop :=
  window cells n head count = l.map some

section Holds

variable {β : Type*} {cells : Nat → Option β} {l : List β}

theorem Holds.length (h : Holds cells n head count l) : l.length = count := by
  have hlen := congrArg List.length h
  rw [length_window, List.length_map] at hlen
  exact hlen.symm

theorem Holds.nil : Holds cells n head 0 [] := rfl

theorem Holds.push (h : Holds cells n head count l) (hcount : count < n) (x : β) :
    Holds (Function.update cells ((head + count) % n) (some x)) n head (count + 1)
      (l ++ [x]) := by
  unfold Holds
  rw [window_push hcount (some x), h, List.map_append]
  rfl

theorem Holds.pop {x : β} {rest : List β} (h : Holds cells n head count (x :: rest))
    (hhead : head < n) (hle : count ≤ n) :
    cells head = some x ∧
      Holds (Function.update cells head none) n ((head + 1) % n) (count - 1) rest := by
  have hlen := h.length
  have hcount : 0 < count := by
    rw [List.length_cons] at hlen
    omega
  unfold Holds at h ⊢
  rw [window_cons hcount, Nat.mod_eq_of_lt hhead, List.map_cons, List.cons.injEq] at h
  refine ⟨h.1, ?_⟩
  rw [window_pop hhead hcount hle none]
  exact h.2

/-- Writing a cell outside the window keeps it. -/
theorem Holds.update_free (h : Holds cells n head count l) (hcount : count < n)
    (x : Option β) : Holds (Function.update cells ((head + count) % n) x) n head count l := by
  have hpush : window (Function.update cells ((head + count) % n) x) n head (count + 1) =
      window cells n head count ++ [x] := window_push hcount x
  unfold Holds window at *
  rw [List.range_succ, List.map_append] at hpush
  exact (List.append_inj_left' hpush rfl).trans h

end Holds

end Ring
