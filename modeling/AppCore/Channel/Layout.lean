/-
  AppCore.Channel.Layout

  `sys_buffer_pool_create` in words of `w` bits: what it asks the allocator for and where
  it places the buffers.  The pool of `Channel.Buffer` counts in `Nat` and leaves the
  addresses out; here every product is one of `size_t`.
-/

import AppCore.Channel.Buffer
import AppCore.Lib.Blocks

namespace AppCore

/-- `size_t` has `w` bits, and `sizeof(sys_buffer_t)` is one. -/
structure Platform.WordSize (P : Platform) (w : Nat) : Prop where
  sizeMax_eq : P.sizeMax = 2 ^ w - 1
  bufferSize_lt : P.bufferSize < 2 ^ w

namespace Platform.WordSize

variable {P : Platform} {w : Nat}

theorem toNat_allOnes (h : P.WordSize w) : (BitVec.allOnes w).toNat = P.sizeMax := by
  rw [h.sizeMax_eq, BitVec.toNat_allOnes]

theorem toNat_bufferSize (h : P.WordSize w) :
    (BitVec.ofNat w P.bufferSize).toNat = P.bufferSize := by
  rw [BitVec.toNat_ofNat]
  exact Nat.mod_eq_of_lt h.bufferSize_lt

end Platform.WordSize

namespace Channel
namespace Words

variable {w : Nat}

/-- What `sys_buffer_pool_create` asks the allocator for, and the fields it sets once.  The
    `data` of a buffer is its offset in `storage`. -/
structure PoolLayout (w : Nat) where
  /-- `block_count * sizeof(sys_buffer_t)`. -/
  descriptors : BitVec w
  /-- `block_count * block_capacity`. -/
  storage : BitVec w
  blockCount : BitVec w
  blockCapacity : BitVec w
  buffers : List (Block w)
deriving DecidableEq, Repr

/-- `sys_buffer_pool_create`.  `outPool` is false for a `NULL` pointer, and `environment`
    is the error of the first allocation or initialization that fails. -/
def sysBufferPoolCreate (sizeofBuffer blockCount blockCapacity : BitVec w) (outPool : Bool)
    (environment : SysErr) : SysErr × Option (PoolLayout w) :=
  if outPool = false then (.invalidParam, none)
  else if blockCount = 0 ∨ blockCapacity = 0 ∨
      blockCount > BitVec.allOnes w / blockCapacity ∨
      blockCount > BitVec.allOnes w / sizeofBuffer then (.invalidParam, none)
  else if environment ≠ .ok then (environment, none)
  else
    (.ok, some
      { descriptors := blockCount * sizeofBuffer
        storage := blockCount * blockCapacity
        blockCount := blockCount
        blockCapacity := blockCapacity
        buffers := Block.assigned blockCount blockCapacity })

/-- The sizes of a layout are those of the natural numbers, and its buffers share the
    storage out among them. -/
structure PoolLayout.Sound (l : PoolLayout w) (sizeofBuffer : BitVec w) : Prop where
  storage_eq : l.storage.toNat = l.blockCount.toNat * l.blockCapacity.toNat
  descriptors_eq : l.descriptors.toNat = l.blockCount.toNat * sizeofBuffer.toNat
  length_eq : l.buffers.length = l.blockCount.toNat
  buffer : ∀ i < l.blockCount.toNat, ∃ b, l.buffers[i]? = some b ∧ b.size = l.blockCapacity ∧
    b.range = Set.Ico (i * l.blockCapacity.toNat) ((i + 1) * l.blockCapacity.toNat)
  disjoint : l.buffers.Pairwise fun a b => Disjoint a.range b.range
  inside : ∀ b ∈ l.buffers, b.range ⊆ Set.Ico 0 l.storage.toNat

section Create

variable {sizeofBuffer blockCount blockCapacity : BitVec w}

/-- What the guards of `sys_buffer_pool_create` let pass. -/
structure Accepted (sizeofBuffer blockCount blockCapacity : BitVec w) : Prop where
  blockCount_ne_zero : blockCount ≠ 0
  blockCapacity_ne_zero : blockCapacity ≠ 0
  storage_lt : blockCount.toNat * blockCapacity.toNat < 2 ^ w
  descriptors_lt : blockCount.toNat * sizeofBuffer.toNat < 2 ^ w

/-- The divisions test the products, and nothing else. -/
theorem guards_iff (hsize : sizeofBuffer ≠ 0) :
    ¬ (blockCount = 0 ∨ blockCapacity = 0 ∨ blockCount > BitVec.allOnes w / blockCapacity ∨
        blockCount > BitVec.allOnes w / sizeofBuffer) ↔
      Accepted sizeofBuffer blockCount blockCapacity := by
  constructor
  · intro h
    obtain ⟨hcount, hcapacity, hstorage, hdescriptors⟩ : blockCount ≠ 0 ∧ blockCapacity ≠ 0 ∧
        ¬ BitVec.allOnes w / blockCapacity < blockCount ∧
        ¬ BitVec.allOnes w / sizeofBuffer < blockCount := by
      simpa only [not_or] using h
    rw [Block.allOnes_udiv_lt hcapacity, Nat.not_le] at hstorage
    rw [Block.allOnes_udiv_lt hsize, Nat.not_le] at hdescriptors
    exact ⟨hcount, hcapacity, hstorage, hdescriptors⟩
  · rintro ⟨hcount, hcapacity, hstorage, hdescriptors⟩ (hzero | hzero | hwraps | hwraps)
    · exact hcount hzero
    · exact hcapacity hzero
    · exact absurd ((Block.allOnes_udiv_lt hcapacity).mp hwraps) (Nat.not_le_of_lt hstorage)
    · exact absurd ((Block.allOnes_udiv_lt hsize).mp hwraps) (Nat.not_le_of_lt hdescriptors)

/-- The layout of an accepted request is sound. -/
theorem Accepted.sound (h : Accepted sizeofBuffer blockCount blockCapacity) :
    PoolLayout.Sound
      { descriptors := blockCount * sizeofBuffer
        storage := blockCount * blockCapacity
        blockCount := blockCount
        blockCapacity := blockCapacity
        buffers := Block.assigned blockCount blockCapacity } sizeofBuffer where
  storage_eq := BitVec.toNat_mul_of_lt h.storage_lt
  descriptors_eq := BitVec.toNat_mul_of_lt h.descriptors_lt
  length_eq := Block.length_assigned blockCount blockCapacity
  buffer _ hi := Block.getElem?_assigned h.storage_lt hi
  disjoint := Block.assigned_disjoint h.storage_lt
  inside b hb := by
    show b.range ⊆ Set.Ico 0 (blockCount * blockCapacity).toNat
    rw [BitVec.toNat_mul_of_lt h.storage_lt]
    exact Block.assigned_subset h.storage_lt hb

/-- A pool that was created has passed the guards, and its layout is sound. -/
theorem sysBufferPoolCreate_sound (hsize : sizeofBuffer ≠ 0) {outPool : Bool}
    {environment : SysErr} {l : PoolLayout w}
    (h : sysBufferPoolCreate sizeofBuffer blockCount blockCapacity outPool environment =
      (.ok, some l)) :
    Accepted sizeofBuffer blockCount blockCapacity ∧ l.blockCount = blockCount ∧
      l.blockCapacity = blockCapacity ∧ l.Sound sizeofBuffer := by
  unfold sysBufferPoolCreate at h
  split at h
  · cases h
  split at h
  · cases h
  rename_i hguards
  split at h
  · cases h
  cases h
  have haccepted := (guards_iff hsize).mp hguards
  exact ⟨haccepted, rfl, rfl, haccepted.sound⟩

/-- Where nothing fails, exactly the requests that fit are accepted. -/
theorem sysBufferPoolCreate_accepts_iff (hsize : sizeofBuffer ≠ 0) :
    (∃ l, sysBufferPoolCreate sizeofBuffer blockCount blockCapacity true .ok = (.ok, some l)) ↔
      Accepted sizeofBuffer blockCount blockCapacity := by
  constructor
  · rintro ⟨l, h⟩
    exact (sysBufferPoolCreate_sound hsize h).1
  · intro haccepted
    rw [sysBufferPoolCreate, if_neg Bool.noConfusion, if_neg ((guards_iff hsize).mpr haccepted),
      if_neg (not_not_intro rfl)]
    exact ⟨_, rfl⟩

end Create

/-- The pool of `Channel.Buffer` makes the same tests on the numbers of the words. -/
theorem sysBufferPoolCreate_refines {P : Platform} (hP : P.WordSize w)
    (blockCount blockCapacity : BitVec w) (outPool : Bool) (environment : SysErr) :
    (Channel.sysBufferPoolCreate P blockCount.toNat blockCapacity.toNat outPool environment).1 =
      (sysBufferPoolCreate (BitVec.ofNat w P.bufferSize) blockCount blockCapacity outPool
        environment).1 := by
  have hzero (a : BitVec w) : a.toNat = 0 ↔ a = 0 :=
    ⟨fun h => BitVec.eq_of_toNat_eq h, fun h => h ▸ BitVec.toNat_zero⟩
  have hguard (a b : BitVec w) : a > BitVec.allOnes w / b ↔ a.toNat > P.sizeMax / b.toNat := by
    rw [gt_iff_lt, BitVec.lt_def, BitVec.toNat_udiv, hP.toNat_allOnes]
  have hguards : (blockCount.toNat = 0 ∨ blockCapacity.toNat = 0 ∨
      blockCount.toNat > P.sizeMax / blockCapacity.toNat ∨
      blockCount.toNat > P.sizeMax / P.bufferSize) ↔
      (blockCount = 0 ∨ blockCapacity = 0 ∨ blockCount > BitVec.allOnes w / blockCapacity ∨
        blockCount > BitVec.allOnes w / BitVec.ofNat w P.bufferSize) := by
    rw [hzero, hzero, hguard, hguard, hP.toNat_bufferSize]
  simp only [Channel.sysBufferPoolCreate, sysBufferPoolCreate, hguards]
  split
  · rfl
  split
  · rfl
  split
  · rfl
  rfl

end Words
end Channel
end AppCore
