/-
  AppCore.Lib.Condition

  Condition variables: who waits, who of them was woken and has not resumed yet, and
  the counting rule that excludes a lost wake-up.  `woken` may hold threads that wait
  for something else.
-/

import Mathlib.Data.Set.Card

namespace Condition

variable {K : Type*}

/-- A signal wakes at least one of the waiters that are asleep, if there is one. -/
def Signal (waiters woken woken' : Set K) : Prop :=
  (waiters \ woken).Nonempty → ∃ k ∈ waiters \ woken, k ∈ woken'

/-- A broadcast wakes all waiters. -/
def Broadcast (waiters woken' : Set K) : Prop := waiters ⊆ woken'

/-- Nobody is asleep, or at least `n` of the waiters are on their way. -/
def Covered (n : ℕ) (waiters woken : Set K) : Prop :=
  (waiters \ woken).Nonempty → (n : ℕ∞) ≤ (waiters ∩ woken).encard

section Rules

variable {n m : ℕ} {k : K} {waiters woken woken' : Set K}

theorem Covered.zero : Covered 0 waiters woken := fun _ => by
  rw [Nat.cast_zero]
  exact zero_le

theorem Covered.empty : Covered n ∅ woken := by
  rintro ⟨k, hk, -⟩
  exact hk.elim

theorem Covered.of_le (h : Covered n waiters woken) (hle : m ≤ n) : Covered m waiters woken :=
  fun hasleep => le_trans (Nat.cast_le.mpr hle) (h hasleep)

/-- Waking more threads does no harm. -/
theorem Covered.woken_mono (h : Covered n waiters woken) (hsub : woken ⊆ woken') :
    Covered n waiters woken' := by
  intro hasleep
  have hbefore : (waiters \ woken).Nonempty := hasleep.mono (Set.sdiff_subset_sdiff_right hsub)
  exact le_trans (h hbefore) (Set.encard_le_encard (Set.inter_subset_inter_right _ hsub))

/-- With every signal one more of the waiters is on its way. -/
theorem Covered.signal (h : Covered n waiters woken) (hsig : Signal waiters woken woken')
    (hsub : woken ⊆ woken') : Covered (n + 1) waiters woken' := by
  intro hasleep
  have hbefore : (waiters \ woken).Nonempty := hasleep.mono (Set.sdiff_subset_sdiff_right hsub)
  obtain ⟨k, ⟨hk, hnot⟩, hwoken⟩ := hsig hbefore
  have hinsert : insert k (waiters ∩ woken) ⊆ waiters ∩ woken' :=
    Set.insert_subset ⟨hk, hwoken⟩ (Set.inter_subset_inter_right _ hsub)
  calc ((n + 1 : ℕ) : ℕ∞) = n + 1 := by push_cast; rfl
    _ ≤ (waiters ∩ woken).encard + 1 := add_le_add_left (h hbefore) 1
    _ = (insert k (waiters ∩ woken)).encard :=
        (Set.encard_insert_of_notMem fun hmem => hnot hmem.2).symm
    _ ≤ (waiters ∩ woken').encard := Set.encard_le_encard hinsert

theorem inter_diff_singleton : (waiters \ {k}) ∩ (woken \ {k}) = (waiters ∩ woken) \ {k} := by
  ext i
  simp only [Set.mem_inter_iff, Set.mem_sdiff, Set.mem_singleton_iff]
  tauto

theorem diff_diff_subset : (waiters \ {k}) \ (woken \ {k}) ⊆ waiters \ woken := by
  rintro i ⟨⟨hi, hne⟩, hnot⟩
  exact ⟨hi, fun hmem => hnot ⟨hmem, hne⟩⟩

/-- A thread that was not on its way may go away. -/
theorem Covered.leave (h : Covered n waiters woken) (hk : k ∉ waiters ∩ woken) :
    Covered n (waiters \ {k}) (woken \ {k}) := by
  intro hasleep
  rw [inter_diff_singleton, Set.sdiff_singleton_eq_self hk]
  exact h (hasleep.mono diff_diff_subset)

/-- A thread that was on its way has taken what it came for. -/
theorem Covered.resume (h : Covered (n + 1) waiters woken) :
    Covered n (waiters \ {k}) (woken \ {k}) := by
  by_cases hk : k ∈ waiters ∩ woken
  · intro hasleep
    rw [inter_diff_singleton]
    have hle := h (hasleep.mono diff_diff_subset)
    rw [← Set.encard_sdiff_singleton_add_one hk, Nat.cast_add, Nat.cast_one] at hle
    exact (ENat.add_le_add_iff_right ENat.one_ne_top).mp hle
  · exact (h.of_le (Nat.le_succ n)).leave hk

end Rules

end Condition
