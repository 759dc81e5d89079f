/-
  AppCore.Lib.Blocks

  A storage of blocks of one size, in words of `w` bits: the division that tests whether
  a product is a word, and the loop that assigns block after block.
-/

import Mathlib.Algebra.Group.Nat.Defs
import Mathlib.Data.List.Basic
import Mathlib.Order.CompletePartialOrder
import Mathlib.Order.Interval.Set.Disjoint

/-- A part of a storage. -/
structure Block (w : Nat) where
  start : BitVec w
  size : BitVec w
deriving DecidableEq, Repr

namespace Block

variable {w : Nat}

/-- The offsets of its bytes. -/
def range (b : Block w) : Set Nat := Set.Ico b.start.toNat (b.start.toNat + b.size.toNat)

/-- Below another word the next word does not wrap. -/
theorem toNat_succ_of_lt {i count : BitVec w} (h : i < count) : (i + 1).toNat = i.toNat + 1 := by
  have hlt : i.toNat < count.toNat := BitVec.lt_def.mp h
  have hbound : count.toNat < 2 ^ w := count.isLt
  have hone : 1 % 2 ^ w = 1 := Nat.mod_eq_of_lt (by omega)
  rw [BitVec.toNat_add, BitVec.ofNat_eq_ofNat, BitVec.toNat_ofNat, hone]
  apply Nat.mod_eq_of_lt
  omega

/-- `for (; i < count; i++)`, where the block `i` starts at `i * size`. -/
def assignLoop (count size i : BitVec w) : List (Block w) :=
  if i < count then ⟨i * size, size⟩ :: assignLoop count size (i + 1) else []
termination_by count.toNat - i.toNat
decreasing_by
  rename_i hlt
  have hle : i.toNat < count.toNat := BitVec.lt_def.mp hlt
  rw [toNat_succ_of_lt hlt]
  omega

section Guard

variable {a b : BitVec w}

/-- A number of 32 bits is a word. -/
theorem toNat_ofNat_of_lt {n : Nat} (hw : 32 ≤ w) (hn : n < 2 ^ 32) :
    (BitVec.ofNat w n).toNat = n := by
  rw [BitVec.toNat_ofNat]
  apply Nat.mod_eq_of_lt
  exact Nat.lt_of_lt_of_le hn (Nat.pow_le_pow_right (Nat.succ_pos 1) hw)

/-- `a > MAX / b` says that the product of `a` and `b` is too large for a word. -/
theorem allOnes_udiv_lt (hb : b ≠ 0) :
    BitVec.allOnes w / b < a ↔ 2 ^ w ≤ a.toNat * b.toNat := by
  have hpos : 0 < b.toNat := by
    rw [Nat.pos_iff_ne_zero]
    intro hzero
    exact hb (BitVec.eq_of_toNat_eq hzero)
  have hmax : 0 < 2 ^ w := Nat.two_pow_pos w
  rw [BitVec.lt_def, BitVec.toNat_udiv, BitVec.toNat_allOnes, Nat.div_lt_iff_lt_mul hpos]
  omega

end Guard

section Assigned

variable {count size : BitVec w}

/-- The loop assigns the blocks from `i` to `count` in order. -/
theorem assignLoop_eq (count size i : BitVec w) :
    assignLoop count size i =
      (List.range' i.toNat (count.toNat - i.toNat)).map
        fun k => ⟨BitVec.ofNat w k * size, size⟩ := by
  fun_induction assignLoop count size i with
  | case1 i hlt ih =>
      have hle : i.toNat < count.toNat := BitVec.lt_def.mp hlt
      have hnext := toNat_succ_of_lt hlt
      have hlength : count.toNat - i.toNat = count.toNat - (i + 1).toNat + 1 := by omega
      rw [ih, hlength, List.range'_succ, List.map_cons, BitVec.ofNat_toNat, BitVec.setWidth_eq,
        hnext]
  | case2 i hlt =>
      have hge : count.toNat ≤ i.toNat := Nat.le_of_not_lt fun h => hlt (BitVec.lt_def.mpr h)
      rw [Nat.sub_eq_zero_of_le hge]
      rfl

/-- All the blocks that are assigned. -/
def assigned (count size : BitVec w) : List (Block w) := assignLoop count size 0

theorem assigned_eq (count size : BitVec w) :
    assigned count size =
      (List.range count.toNat).map fun k => ⟨BitVec.ofNat w k * size, size⟩ := by
  have hzero : (0 : BitVec w).toNat = 0 := BitVec.toNat_zero
  rw [assigned, assignLoop_eq, hzero, Nat.sub_zero, List.range_eq_range']

theorem length_assigned (count size : BitVec w) :
    (assigned count size).length = count.toNat := by
  rw [assigned_eq, List.length_map, List.length_range]

/-- Below the count no start wraps, when the whole storage is a word. -/
theorem range_assigned (h : count.toNat * size.toNat < 2 ^ w) {k : Nat} (hk : k < count.toNat) :
    range ⟨BitVec.ofNat w k * size, size⟩ = Set.Ico (k * size.toNat) ((k + 1) * size.toNat) := by
  have hword : (BitVec.ofNat w k).toNat = k := by
    rw [BitVec.toNat_ofNat]
    exact Nat.mod_eq_of_lt (Nat.lt_trans hk count.isLt)
  have hle : k * size.toNat ≤ count.toNat * size.toNat :=
    Nat.mul_le_mul_right _ (Nat.le_of_lt hk)
  have hstart : (BitVec.ofNat w k * size).toNat = k * size.toNat := by
    rw [BitVec.toNat_mul_of_lt, hword]
    rw [hword]
    omega
  rw [range, hstart, Nat.succ_mul]

/-- The block `k` covers the offsets from `k * size` to `(k + 1) * size`. -/
theorem getElem?_assigned (h : count.toNat * size.toNat < 2 ^ w) {k : Nat}
    (hk : k < count.toNat) :
    ∃ b, (assigned count size)[k]? = some b ∧ b.size = size ∧
      b.range = Set.Ico (k * size.toNat) ((k + 1) * size.toNat) := by
  refine ⟨⟨BitVec.ofNat w k * size, size⟩, ?_, rfl, range_assigned h hk⟩
  rw [assigned_eq, List.getElem?_map, List.getElem?_range hk]
  rfl

/-- No two of the blocks share a byte. -/
theorem assigned_disjoint (h : count.toNat * size.toNat < 2 ^ w) :
    (assigned count size).Pairwise fun a b => Disjoint a.range b.range := by
  rw [assigned_eq, List.pairwise_map]
  refine List.Pairwise.imp_of_mem ?_ List.pairwise_lt_range
  intro i j hi hj hlt
  rw [range_assigned h (List.mem_range.mp hi), range_assigned h (List.mem_range.mp hj)]
  -- the first block ends before the second one starts
  have hends : (i + 1) * size.toNat ≤ j * size.toNat := Nat.mul_le_mul_right _ hlt
  rw [Set.Ico_disjoint_Ico]
  exact Nat.le_trans (Nat.min_le_left _ _) (Nat.le_trans hends (Nat.le_max_right _ _))

/-- They all lie in the storage. -/
theorem assigned_subset (h : count.toNat * size.toNat < 2 ^ w) {b : Block w}
    (hb : b ∈ assigned count size) : b.range ⊆ Set.Ico 0 (count.toNat * size.toNat) := by
  rw [assigned_eq] at hb
  obtain ⟨k, hk, rfl⟩ := List.mem_map.mp hb
  have hlt := List.mem_range.mp hk
  rw [range_assigned h hlt]
  apply Set.Ico_subset_Ico (Nat.zero_le _)
  exact Nat.mul_le_mul_right _ hlt

end Assigned

end Block
