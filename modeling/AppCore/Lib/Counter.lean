/-
  AppCore.Lib.Counter

  A counter with wrap-around that counts the members of two families.  Nothing here depends
  on what the families are.
-/

import AppCore.Lib.Holding
import Mathlib.Data.Nat.ModEq

namespace Family

variable {ι κ β γ : Type*} {m counter counter' : Nat} {f : β → Nat} {g : ι → β} {f' : γ → Nat}
  {g' : κ → γ}

/-- The counter is the sum of the weights of the members of both families, modulo `m`. -/
structure Counts (m counter : Nat) (f : β → Nat) (g : ι → β) (f' : γ → Nat) (g' : κ → γ) :
    Prop where
  finite_left : (Function.support fun i => f (g i)).Finite
  finite_right : (Function.support fun j => f' (g' j)).Finite
  counter_lt : counter < m
  modEq : counter ≡ (∑ᶠ i, f (g i)) + ∑ᶠ j, f' (g' j) [MOD m]

/-- A counter that starts at zero, of families without weight. -/
theorem Counts.zero (hm : 0 < m) (hleft : ∀ i, f (g i) = 0) (hright : ∀ j, f' (g' j) = 0) :
    Counts m 0 f g f' g' := by
  refine ⟨?_, ?_, hm, ?_⟩
  · exact Set.finite_empty.subset fun i hi => hi (hleft i)
  · exact Set.finite_empty.subset fun j hj => hj (hright j)
  · rw [finsum_eq_zero_of_forall_eq_zero hleft, finsum_eq_zero_of_forall_eq_zero hright]
    exact Nat.ModEq.refl 0

theorem Counts.counter_eq (h : Counts m counter f g f' g') :
    counter = ((∑ᶠ i, f (g i)) + ∑ᶠ j, f' (g' j)) % m := by
  have hmod := h.modEq
  rwa [Nat.ModEq, Nat.mod_eq_of_lt h.counter_lt] at hmod

/-- The members that weigh something are those that weigh one. -/
theorem support_eq_one {f : ι → Nat} (hle : ∀ i, f i ≤ 1) :
    (Function.support f) = {i | f i = 1} ∧ {i | 0 < f i} = {i | f i = 1} := by
  constructor
  · ext i
    have hi := hle i
    rw [Function.mem_support, Set.mem_ofPred_eq]
    omega
  · ext i
    have hi := hle i
    rw [Set.mem_ofPred_eq, Set.mem_ofPred_eq]
    omega

/-- The counter counts the members that weigh one, if none weighs more. -/
theorem Counts.counter_eq_ncard (h : Counts m counter f g f' g') (hle : ∀ b, f b ≤ 1)
    (hle' : ∀ b, f' b ≤ 1) :
    {i | f (g i) = 1}.Finite ∧ {j | f' (g' j) = 1}.Finite ∧
      counter = ({i | f (g i) = 1}.ncard + {j | f' (g' j) = 1}.ncard) % m := by
  obtain ⟨hsupport, hpos⟩ := support_eq_one fun i => hle (g i)
  obtain ⟨hsupport', hpos'⟩ := support_eq_one fun j => hle' (g' j)
  refine ⟨hsupport ▸ h.finite_left, hsupport' ▸ h.finite_right, ?_⟩
  rw [h.counter_eq, finsum_eq_ncard fun i => hle (g i), finsum_eq_ncard fun j => hle' (g' j),
    hpos, hpos']

variable {i : ι} {b : β} {j : κ} {b' : γ}

/-- A member of each family changes its weight, and the counter with them. -/
theorem Counts.update [DecidableEq ι] [DecidableEq κ] (h : Counts m counter f g f' g')
    (hlt : counter' < m)
    (hcounter : counter' + f (g i) + f' (g' j) ≡ counter + f b + f' b' [MOD m]) :
    Counts m counter' f (Function.update g i b) f' (Function.update g' j b') := by
  have hleft := finsum_update_add (f := fun _ x => f x) h.finite_left i b
  have hright := finsum_update_add (f := fun _ x => f' x) h.finite_right j b'
  refine ⟨support_update_finite (f := fun _ x => f x) h.finite_left i b,
    support_update_finite (f := fun _ x => f' x) h.finite_right j b', hlt, ?_⟩
  -- both sides with the old weights
  have hadd : counter' + (f (g i) + f' (g' j)) ≡
      ((∑ᶠ k, f (Function.update g i b k)) + ∑ᶠ k, f' (Function.update g' j b' k)) +
        (f (g i) + f' (g' j)) [MOD m] := by
    have htotal : ((∑ᶠ k, f (Function.update g i b k)) + ∑ᶠ k, f' (Function.update g' j b' k)) +
        (f (g i) + f' (g' j)) = ((∑ᶠ k, f (g k)) + ∑ᶠ k, f' (g' k)) + (f b + f' b') := by omega
    rw [htotal, ← Nat.add_assoc]
    refine hcounter.trans ?_
    rw [Nat.add_assoc]
    exact h.modEq.add_right _
  exact hadd.add_right_cancel' _

theorem Counts.update_left [DecidableEq ι] (h : Counts m counter f g f' g')
    (hlt : counter' < m)
    (hcounter : counter' + f (g i) ≡ counter + f b [MOD m]) :
    Counts m counter' f (Function.update g i b) f' g' := by
  have hleft := finsum_update_add (f := fun _ x => f x) h.finite_left i b
  refine ⟨support_update_finite (f := fun _ x => f x) h.finite_left i b, h.finite_right, hlt, ?_⟩
  have hadd : counter' + f (g i) ≡
      ((∑ᶠ k, f (Function.update g i b k)) + ∑ᶠ k, f' (g' k)) + f (g i) [MOD m] := by
    have htotal : ((∑ᶠ k, f (Function.update g i b k)) + ∑ᶠ k, f' (g' k)) + f (g i) =
        ((∑ᶠ k, f (g k)) + ∑ᶠ k, f' (g' k)) + f b := by omega
    rw [htotal]
    exact hcounter.trans (h.modEq.add_right _)
  exact hadd.add_right_cancel' _

theorem Counts.update_right [DecidableEq κ] (h : Counts m counter f g f' g')
    (hlt : counter' < m)
    (hcounter : counter' + f' (g' j) ≡ counter + f' b' [MOD m]) :
    Counts m counter' f g f' (Function.update g' j b') := by
  have hright := finsum_update_add (f := fun _ x => f' x) h.finite_right j b'
  refine ⟨h.finite_left, support_update_finite (f := fun _ x => f' x) h.finite_right j b', hlt, ?_⟩
  have hadd : counter' + f' (g' j) ≡
      ((∑ᶠ k, f (g k)) + ∑ᶠ k, f' (Function.update g' j b' k)) + f' (g' j) [MOD m] := by
    have htotal : ((∑ᶠ k, f (g k)) + ∑ᶠ k, f' (Function.update g' j b' k)) + f' (g' j) =
        ((∑ᶠ k, f (g k)) + ∑ᶠ k, f' (g' k)) + f' b' := by omega
    rw [htotal]
    exact hcounter.trans (h.modEq.add_right _)
  exact hadd.add_right_cancel' _

/-- A member that changes keeps its weight. -/
theorem Counts.keep_left [DecidableEq ι] (h : Counts m counter f g f' g')
    (hb : f b = f (g i)) : Counts m counter f (Function.update g i b) f' g' := by
  apply h.update_left h.counter_lt
  rw [hb]

theorem Counts.keep_right [DecidableEq κ] (h : Counts m counter f g f' g')
    (hb : f' b' = f' (g' j)) : Counts m counter f g f' (Function.update g' j b') := by
  apply h.update_right h.counter_lt
  rw [hb]

end Family
