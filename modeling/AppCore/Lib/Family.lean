/-
  AppCore.Lib.Family

  Sums over a family when one member changes, and counting by such sums.  Over an
  infinite family the sum is the one of finitely many members that are not zero.
-/

import Mathlib.Algebra.BigOperators.Finprod
import Mathlib.Data.Fintype.Basic

namespace Family

variable {ι β M : Type*} [DecidableEq ι] [AddCommMonoid M]

/-- The sum over a set after one of its members has changed, without a subtraction. -/
theorem sum_update_add_of_mem (f : ι → β → M) (g : ι → β) (b : β) {s : Finset ι} {i : ι}
    (hi : i ∈ s) :
    (∑ j ∈ s, f j (Function.update g i b j)) + f i (g i) = (∑ j ∈ s, f j (g j)) + f i b := by
  have hrest : ∑ j ∈ s.erase i, f j (Function.update g i b j) =
      ∑ j ∈ s.erase i, f j (g j) := by
    refine Finset.sum_congr rfl fun j hj => ?_
    rw [Function.update_of_ne (Finset.ne_of_mem_erase hj)]
  have hnew := Finset.add_sum_erase s (fun j => f j (Function.update g i b j)) hi
  have hold := Finset.add_sum_erase s (fun j => f j (g j)) hi
  rw [← hnew, ← hold, hrest, Function.update_self, add_comm (f i b), add_comm (f i (g i)),
    add_right_comm]

/-- Only the member that changed can have joined the ones that are not zero. -/
theorem support_update_subset (f : ι → β → M) (g : ι → β) (i : ι) (b : β) :
    (Function.support fun j => f j (Function.update g i b j)) ⊆
      insert i (Function.support fun j => f j (g j)) := by
  intro j hj
  by_cases hji : j = i
  · exact Or.inl hji
  · rw [Function.mem_support, Function.update_of_ne hji] at hj
    exact Or.inr hj

section Infinite

variable {f : ι → β → M} {g : ι → β}

theorem support_update_finite (hfin : (Function.support fun j => f j (g j)).Finite) (i : ι)
    (b : β) : (Function.support fun j => f j (Function.update g i b j)).Finite :=
  (hfin.insert i).subset (support_update_subset f g i b)

/-- The sum over all members after one has changed. -/
theorem finsum_update_add (hfin : (Function.support fun j => f j (g j)).Finite) (i : ι)
    (b : β) :
    (∑ᶠ j, f j (Function.update g i b j)) + f i (g i) = (∑ᶠ j, f j (g j)) + f i b := by
  set s : Finset ι := (hfin.insert i).toFinset with hs
  have hold : (Function.support fun j => f j (g j)) ⊆ s := by
    rw [hs, Set.Finite.coe_toFinset]
    exact Set.subset_insert i _
  have hnew : (Function.support fun j => f j (Function.update g i b j)) ⊆ s := by
    rw [hs, Set.Finite.coe_toFinset]
    exact support_update_subset f g i b
  have hi : i ∈ s := by
    rw [hs, Set.Finite.mem_toFinset]
    exact Set.mem_insert i _
  rw [finsum_eq_sum_of_support_subset _ hnew, finsum_eq_sum_of_support_subset _ hold]
  exact sum_update_add_of_mem f g b hi

end Infinite

variable [Fintype ι]

/-- The sum over a finite family after one member has changed. -/
theorem sum_update_add (f : ι → β → M) (g : ι → β) (i : ι) (b : β) :
    (∑ j, f j (Function.update g i b j)) + f i (g i) = (∑ j, f j (g j)) + f i b :=
  sum_update_add_of_mem f g b (Finset.mem_univ i)

end Family
