/-
  AppCore.Lib.Holding

  Objects that are handed from holder to holder, each together with a reference of one
  counted thing: every object has exactly one holder, and the count is the number of the
  references the holders have.  Nothing here depends on what they are.
-/

import AppCore.Lib.Family
import Mathlib.Data.Set.Card.Arithmetic

namespace Family

variable {ι R : Type*} {handle : ι → Option R × Bool} {alive : R → Prop} {count : Nat}

/-- A sum of ones and zeros counts the ones. -/
theorem finsum_eq_ncard {f : ι → Nat} (hle : ∀ i, f i ≤ 1) :
    ∑ᶠ i, f i = {i | 0 < f i}.ncard := by
  rw [← finsum_one]
  apply finsum_congr
  intro i
  rw [finsum_eq_if]
  have hi := hle i
  split
  · rename_i hpos
    have hpos : 0 < f i := hpos
    omega
  · rename_i hnot
    have hnot : ¬ 0 < f i := hnot
    omega

/-- Each holder has an object or none, and a reference or none. -/
structure Holding (handle : ι → Option R × Bool) (alive : R → Prop) (count : Nat) : Prop where
  finite : (Function.support fun i => (handle i).2.toNat).Finite
  count_eq : count = ∑ᶠ i, (handle i).2.toNat
  /-- An object uses the reference of its holder. -/
  backed : ∀ i r, (handle i).1 = some r → (handle i).2 = true
  alive_of_held : ∀ i r, (handle i).1 = some r → alive r
  held_of_alive : ∀ r, alive r → ∃ i, (handle i).1 = some r
  unique : ∀ i j r, (handle i).1 = some r → (handle j).1 = some r → i = j

theorem Holding.congr {alive' : R → Prop} (h : Holding handle alive count)
    (halive : ∀ r, alive' r ↔ alive r) : Holding handle alive' count where
  finite := h.finite
  count_eq := h.count_eq
  backed := h.backed
  alive_of_held := fun i r hi => (halive r).mpr (h.alive_of_held i r hi)
  held_of_alive := fun r hr => h.held_of_alive r ((halive r).mp hr)
  unique := h.unique

/-- Nobody holds anything. -/
theorem Holding.nobody (hhandle : ∀ i, handle i = (none, false)) (halive : ∀ r, ¬ alive r) :
    Holding handle alive 0 := by
  have hzero : (fun i => (handle i).2.toNat) = fun _ => 0 := by
    funext i
    rw [hhandle]
    rfl
  refine ⟨?_, ?_, fun i r hi => ?_, fun i r hi => ?_, fun r hr => absurd hr (halive r),
    fun i j r hi => ?_⟩
  · rw [hzero]
    exact Set.finite_empty.subset fun i hi => hi rfl
  · rw [hzero, finsum_zero]
  all_goals
    rw [hhandle] at hi
    cases hi

/-- When nobody holds anything, there is no object and no reference. -/
theorem Holding.empty (h : Holding handle alive count) (hhandle : ∀ i, handle i = (none, false)) :
    count = 0 ∧ ∀ r, ¬ alive r := by
  constructor
  · rw [h.count_eq]
    apply finsum_eq_zero_of_forall_eq_zero
    intro i
    rw [hhandle]
    rfl
  · intro r hr
    obtain ⟨i, hi⟩ := h.held_of_alive r hr
    rw [hhandle] at hi
    cases hi

theorem Holding.pos (h : Holding handle alive count) {i : ι} (hi : (handle i).2 = true) :
    0 < count := by
  have hle := single_le_finsum i h.finite fun _ => Nat.zero_le _
  rw [← h.count_eq, hi] at hle
  exact hle

theorem Holding.eq_of_count (h : Holding handle alive 0) (i : ι) : handle i = (none, false) := by
  cases hi : handle i with
  | mk object reference =>
      cases hreference : reference with
      | true =>
          have hpos := h.pos (i := i) (by rw [hi, hreference])
          exact absurd hpos (Nat.lt_irrefl 0)
      | false =>
          cases hobject : object with
          | none => rfl
          | some r =>
              have hbacked := h.backed i r (by rw [hi, hobject])
              rw [hi, hreference] at hbacked
              cases hbacked

section Update

variable [DecidableEq ι] {i j : ι} {r : R}

/-- The count after one holder has changed what it has. -/
theorem Holding.sum_update (h : Holding handle alive count) (i : ι) (x : Option R × Bool) :
    (∑ᶠ j, (Function.update handle i x j).2.toNat) + (handle i).2.toNat =
      count + x.2.toNat := by
  rw [h.count_eq]
  exact finsum_update_add (f := fun _ (y : Option R × Bool) => y.2.toNat) h.finite i x

theorem Holding.finite_update (h : Holding handle alive count) (i : ι) (x : Option R × Bool) :
    (Function.support fun j => (Function.update handle i x j).2.toNat).Finite :=
  support_update_finite (f := fun _ (y : Option R × Bool) => y.2.toNat) h.finite i x

/-- A holder hands everything to one that has nothing. -/
theorem Holding.hand (h : Holding handle alive count) (hij : i ≠ j)
    (hj : handle j = (none, false)) :
    Holding (Function.update (Function.update handle j (handle i)) i (none, false)) alive
      count := by
  -- the object of a holder after the step was that of `j` where it is `i`'s now
  have hat : ∀ k, Function.update (Function.update handle j (handle i)) i (none, false) k =
      if k = i then (none, false) else if k = j then handle i else handle k := by
    intro k
    rw [Function.update_apply, Function.update_apply]
  have hfinite :
      (Function.support fun k => (Function.update handle j (handle i) k).2.toNat).Finite :=
    h.finite_update j (handle i)
  have hfirst := h.sum_update j (handle i)
  have hsecond := finsum_update_add (f := fun _ (y : Option R × Bool) => y.2.toNat) hfinite i
    (none, false)
  rw [Function.update_of_ne hij] at hsecond
  rw [hj] at hfirst
  have hback : ∀ k r', (Function.update (Function.update handle j (handle i)) i
      (none, false) k).1 = some r' → ∃ k', (handle k').1 = some r' ∧
        (k = j ∧ k' = i ∨ k ≠ j ∧ k' = k ∧ k ≠ i) := by
    intro k r' hk
    rw [hat] at hk
    split at hk
    · cases hk
    · rename_i hki
      split at hk
      · rename_i hkj
        exact ⟨i, hk, Or.inl ⟨hkj, rfl⟩⟩
      · rename_i hkj
        exact ⟨k, hk, Or.inr ⟨hkj, rfl, hki⟩⟩
  refine ⟨support_update_finite (f := fun _ (y : Option R × Bool) => y.2.toNat) hfinite i _, ?_,
    fun k r' hk => ?_, fun k r' hk => ?_, fun r' hr' => ?_, fun k k' r' hk hk' => ?_⟩
  · dsimp only [Bool.toNat_false] at hfirst hsecond
    omega
  · rw [hat] at hk ⊢
    split at hk
    · cases hk
    · rename_i hki
      rw [if_neg hki]
      split at hk
      · rename_i hkj
        rw [if_pos hkj]
        exact h.backed i r' hk
      · rename_i hkj
        rw [if_neg hkj]
        exact h.backed k r' hk
  · obtain ⟨k', hk', -⟩ := hback k r' hk
    exact h.alive_of_held k' r' hk'
  · obtain ⟨k, hk⟩ := h.held_of_alive r' hr'
    by_cases hki : k = i
    · refine ⟨j, ?_⟩
      rw [hat, if_neg hij.symm, if_pos rfl, ← hki]
      exact hk
    · have hkj : k ≠ j := by
        rintro rfl
        rw [hj] at hk
        cases hk
      refine ⟨k, ?_⟩
      rw [hat, if_neg hki, if_neg hkj]
      exact hk
  · obtain ⟨l, hl, hcase⟩ := hback k r' hk
    obtain ⟨l', hl', hcase'⟩ := hback k' r' hk'
    have heq : l = l' := h.unique l l' r' hl hl'
    rcases hcase with ⟨rfl, rfl⟩ | ⟨hkj, rfl, hki⟩
    · rcases hcase' with ⟨rfl, -⟩ | ⟨-, rfl, hki'⟩
      · rfl
      · exact absurd heq.symm hki'
    · rcases hcase' with ⟨rfl, rfl⟩ | ⟨-, rfl, -⟩
      · exact absurd heq hki
      · exact heq

/-- A holder that has nothing takes a reference and makes an object. -/
theorem Holding.take (h : Holding handle alive count) (hi : handle i = (none, false))
    (hr : ¬ alive r) :
    Holding (Function.update handle i (some r, true)) (fun r' => alive r' ∨ r' = r)
      (count + 1) := by
  have hsum := h.sum_update i (some r, true)
  rw [hi] at hsum
  have hback : ∀ k r', (Function.update handle i (some r, true) k).1 = some r' →
      k = i ∧ r' = r ∨ k ≠ i ∧ (handle k).1 = some r' := by
    intro k r' hk
    rw [Function.update_apply] at hk
    split at hk
    · rename_i hki
      exact Or.inl ⟨hki, (Option.some.inj hk).symm⟩
    · rename_i hki
      exact Or.inr ⟨hki, hk⟩
  refine ⟨h.finite_update i _, ?_, fun k r' hk => ?_, fun k r' hk => ?_, fun r' hr' => ?_,
    fun k k' r' hk hk' => ?_⟩
  · dsimp only [Bool.toNat_false, Bool.toNat_true] at hsum
    omega
  · rw [Function.update_apply]
    split
    · rfl
    · rename_i hki
      rw [Function.update_of_ne hki] at hk
      exact h.backed k r' hk
  · rcases hback k r' hk with ⟨-, heq⟩ | ⟨-, hk⟩
    · exact Or.inr heq
    · exact Or.inl (h.alive_of_held k r' hk)
  · rcases hr' with hr' | rfl
    · obtain ⟨k, hk⟩ := h.held_of_alive r' hr'
      have hki : k ≠ i := by
        rintro rfl
        rw [hi] at hk
        cases hk
      exact ⟨k, by rwa [Function.update_of_ne hki]⟩
    · exact ⟨i, by rw [Function.update_self]⟩
  · rcases hback k r' hk with ⟨hki, hr'⟩ | ⟨hki, hold⟩
    · rcases hback k' r' hk' with ⟨hki', -⟩ | ⟨-, hold'⟩
      · rw [hki, hki']
      · rw [hr'] at hold'
        exact absurd (h.alive_of_held k' r hold') hr
    · rcases hback k' r' hk' with ⟨-, hr'⟩ | ⟨-, hold'⟩
      · rw [hr'] at hold
        exact absurd (h.alive_of_held k r hold) hr
      · exact h.unique k k' r' hold hold'

/-- A holder ends its object and keeps the reference. -/
theorem Holding.finish (h : Holding handle alive count) (hi : handle i = (some r, true)) :
    Holding (Function.update handle i (none, true)) (fun r' => alive r' ∧ r' ≠ r)
      count := by
  have hsum := h.sum_update i (none, true)
  rw [hi] at hsum
  have hback : ∀ k r', (Function.update handle i (none, true) k).1 = some r' →
      k ≠ i ∧ (handle k).1 = some r' := by
    intro k r' hk
    rw [Function.update_apply] at hk
    split at hk
    · cases hk
    · rename_i hki
      exact ⟨hki, hk⟩
  have hri : (handle i).1 = some r := by rw [hi]
  refine ⟨h.finite_update i _, ?_, fun k r' hk => ?_, fun k r' hk => ?_, fun r' hr' => ?_,
    fun k k' r' hk hk' => h.unique k k' r' (hback k r' hk).2 (hback k' r' hk').2⟩
  · dsimp only [Bool.toNat_true] at hsum
    omega
  · obtain ⟨hki, hk⟩ := hback k r' hk
    rw [Function.update_of_ne hki]
    exact h.backed k r' hk
  · obtain ⟨hki, hk⟩ := hback k r' hk
    refine ⟨h.alive_of_held k r' hk, ?_⟩
    rintro rfl
    exact hki (h.unique k i r' hk hri)
  · obtain ⟨k, hk⟩ := h.held_of_alive r' hr'.1
    have hki : k ≠ i := by
      rintro rfl
      rw [hri] at hk
      exact hr'.2 (Option.some.inj hk).symm
    exact ⟨k, by rwa [Function.update_of_ne hki]⟩

/-- A holder without an object gives up its reference. -/
theorem Holding.drop (h : Holding handle alive count) (hi : handle i = (none, true)) :
    Holding (Function.update handle i (none, false)) alive (count - 1) := by
  have hsum := h.sum_update i (none, false)
  rw [hi] at hsum
  have hback : ∀ k r', (Function.update handle i (none, false) k).1 = some r' →
      k ≠ i ∧ (handle k).1 = some r' := by
    intro k r' hk
    rw [Function.update_apply] at hk
    split at hk
    · cases hk
    · rename_i hki
      exact ⟨hki, hk⟩
  refine ⟨h.finite_update i _, ?_, fun k r' hk => ?_,
    fun k r' hk => h.alive_of_held k r' (hback k r' hk).2, fun r' hr' => ?_,
    fun k k' r' hk hk' => h.unique k k' r' (hback k r' hk).2 (hback k' r' hk').2⟩
  · dsimp only [Bool.toNat_false, Bool.toNat_true] at hsum
    omega
  · obtain ⟨hki, hk⟩ := hback k r' hk
    rw [Function.update_of_ne hki]
    exact h.backed k r' hk
  · obtain ⟨k, hk⟩ := h.held_of_alive r' hr'
    have hki : k ≠ i := by
      rintro rfl
      rw [hi] at hk
      cases hk
    exact ⟨k, by rwa [Function.update_of_ne hki]⟩

end Update

end Family
