/-
  AppCore.Channel.Buffer

  The buffer pool of `core/sys_channel.c`.  A buffer is its index in the pool;
  `block_count` is the parameter `n` of the pool's type.  Each function below is
  one critical section of the pool mutex.  The payload and its address are left
  out: no function of the pool reads them.
-/

import AppCore.Types
import AppCore.Lib.Family
import Mathlib.Logic.Function.Basic
import Mathlib.Algebra.Order.BigOperators.Group.Finset

namespace AppCore
namespace Channel

/-- The fields of `struct sys_buffer` that change. -/
structure Buffer where
  size : Nat := 0
  timestamp : UInt64 := 0
  sequence : UInt64 := 0
  generation : UInt64 := 0
  type : UInt32 := 0
  version : UInt32 := 0
  referenceCount : Nat := 0
deriving DecidableEq, Repr

/-- `struct sys_buffer_pool` with `n` blocks. -/
structure Pool (n : Nat) where
  buffers : Fin n → Buffer
  blockCapacity : Nat
  buffersInUse : Nat

variable {n : Nat}

/-- `sys_buffer_pool_create`.  `outPool` is false for a `NULL` pointer, and
    `environment` is the error of the first allocation or initialization that
    fails. -/
def sysBufferPoolCreate (P : Platform) (blockCount blockCapacity : Nat) (outPool : Bool)
    (environment : SysErr) : SysErr × Option (Pool blockCount) :=
  if outPool = false then (.invalidParam, none)
  else if blockCount = 0 ∨ blockCapacity = 0 ∨ blockCount > P.sizeMax / blockCapacity ∨
      blockCount > P.sizeMax / P.bufferSize then (.invalidParam, none)
  else if environment ≠ .ok then (environment, none)
  else (.ok, some { buffers := fun _ => {}, blockCapacity := blockCapacity, buffersInUse := 0 })

/-- `sys_buffer_pool_destroy` on an existing pool. -/
def sysBufferPoolDestroy (pool : Pool n) : SysErr :=
  if pool.buffersInUse ≠ 0 then .busy else .ok

/-- The error of a wait that returned `ret`. -/
def waitError (ret : Int) : SysErr :=
  if ret = ETIMEDOUT then .timeout else sysErrorFromErrno ret

/-- The loop of `sys_buffer_pool_wait_idle`; `none` when it waits. -/
def waitIdleLoop (timeoutMs : Int) (pool : Pool n) : Option SysErr :=
  if pool.buffersInUse ≠ 0 then
    if timeoutMs = 0 then some .busy else none
  else some .ok

/-- `sys_buffer_pool_wait_idle` after a wait that returned `ret`. -/
def waitIdleWake (timeoutMs ret : Int) (pool : Pool n) : Option SysErr :=
  if ret ≠ 0 then some (waitError ret) else waitIdleLoop timeoutMs pool

/-- `sys_buffer_acquire`.  `outBuffer` is false when one of the pointers is `NULL`. -/
def sysBufferAcquire (P : Platform) (outBuffer : Bool) (pool : Pool n) :
    SysErr × Pool n × Option (Fin n) :=
  if outBuffer = false then (.invalidParam, pool, none)
  else
    match (List.finRange n).find? fun b => (pool.buffers b).referenceCount = 0 with
    | none => (.busy, pool, none)
    | some b =>
      (.ok,
        { pool with
          buffers := Function.update pool.buffers b
            { size := 0, timestamp := 0, sequence := 0, generation := 0, type := 0
              version := 0, referenceCount := 1 }
          buffersInUse := P.wrap (pool.buffersInUse + 1) },
        some b)

/-- `sys_buffer_retain`. -/
def sysBufferRetain (P : Platform) (buffer : Option (Fin n)) (pool : Pool n) :
    SysErr × Pool n :=
  match buffer with
  | none => (.invalidParam, pool)
  | some b =>
    let slot := pool.buffers b
    if slot.referenceCount = 0 then (.state, pool)
    else if slot.referenceCount = P.sizeMax then (.overflow, pool)
    else
      (.ok, { pool with
        buffers := Function.update pool.buffers b
          { slot with referenceCount := slot.referenceCount + 1 } })

/-- `sys_buffer_release`. -/
def sysBufferRelease (P : Platform) (buffer : Option (Fin n)) (pool : Pool n) : Pool n :=
  match buffer with
  | none => pool
  | some b =>
    let slot := pool.buffers b
    if slot.referenceCount > 0 then
      { pool with
        buffers := Function.update pool.buffers b
          { slot with referenceCount := slot.referenceCount - 1 }
        buffersInUse :=
          if slot.referenceCount - 1 = 0 then P.wrap (pool.buffersInUse + P.sizeMax)
          else pool.buffersInUse }
    else pool

/-- An acquire that hands out no buffer leaves the pool as it is. -/
theorem sysBufferAcquire_result (P : Platform) (outBuffer : Bool) (pool : Pool n) :
    (∃ b pool', sysBufferAcquire P outBuffer pool = (.ok, pool', some b)) ∨
      ∃ ret, sysBufferAcquire P outBuffer pool = (ret, pool, none) := by
  unfold sysBufferAcquire
  split
  · exact Or.inr ⟨_, rfl⟩
  · split
    · exact Or.inr ⟨_, rfl⟩
    · exact Or.inl ⟨_, _, rfl⟩

/-- A retain that fails leaves the pool as it is. -/
theorem sysBufferRetain_result (P : Platform) (buffer : Option (Fin n)) (pool : Pool n) :
    (∃ b, buffer = some b ∧ (sysBufferRetain P buffer pool).1 = .ok) ∨
      ((sysBufferRetain P buffer pool).1 ≠ .ok ∧ (sysBufferRetain P buffer pool).2 = pool) := by
  cases buffer with
  | none => exact Or.inr ⟨SysErr.noConfusion, rfl⟩
  | some b =>
      simp only [sysBufferRetain]
      split
      · exact Or.inr ⟨SysErr.noConfusion, rfl⟩
      · split
        · exact Or.inr ⟨SysErr.noConfusion, rfl⟩
        · exact Or.inl ⟨b, rfl, rfl⟩

/-! ## Reference counts -/

/-- The reference count of a buffer. -/
def Pool.count (pool : Pool n) (b : Fin n) : Nat := (pool.buffers b).referenceCount

/-- One for a buffer in use. -/
def inUse (count : Nat) : Nat := if count = 0 then 0 else 1

/-- `buffers_in_use` is the number of buffers with a count, and the pool is one that
    `sys_buffer_pool_create` makes. -/
structure Pool.Counted (P : Platform) (pool : Pool n) : Prop where
  blocks_le : n ≤ P.sizeMax
  in_use : pool.buffersInUse = ∑ b, inUse (pool.count b)

section Counting

variable {P : Platform} {pool : Pool n} {b : Fin n}

theorem Pool.Counted.in_use_le (h : pool.Counted P) : pool.buffersInUse ≤ n := by
  rw [h.in_use]
  calc ∑ b, inUse (pool.count b) ≤ ∑ _b : Fin n, 1 := by
        refine Finset.sum_le_sum fun b _ => ?_
        unfold inUse
        split <;> omega
    _ = n := by simp

theorem Pool.Counted.in_use_pos (h : pool.Counted P) (hb : pool.count b ≠ 0) :
    0 < pool.buffersInUse := by
  rw [h.in_use]
  calc 0 < inUse (pool.count b) := by rw [inUse, if_neg hb]; omega
    _ ≤ ∑ b, inUse (pool.count b) :=
        Finset.single_le_sum (fun i _ => Nat.zero_le (inUse (pool.count i)))
          (Finset.mem_univ b)

theorem Pool.Counted.in_use_lt (h : pool.Counted P) (hb : pool.count b = 0) :
    pool.buffersInUse < n := by
  rw [h.in_use]
  calc ∑ b, inUse (pool.count b) < ∑ _b : Fin n, 1 := by
        refine Finset.sum_lt_sum (fun i _ => ?_) ⟨b, Finset.mem_univ b, ?_⟩
        · unfold inUse
          split <;> omega
        · rw [inUse, if_pos hb]
          omega
    _ = n := by simp

theorem Pool.Counted.idle_iff (h : pool.Counted P) :
    pool.buffersInUse = 0 ↔ ∀ b, pool.count b = 0 := by
  constructor
  · intro hz b
    by_contra hb
    have := h.in_use_pos hb
    omega
  · intro hz
    rw [h.in_use]
    exact Finset.sum_eq_zero fun b _ => by rw [inUse, if_pos (hz b)]

/-- The count of a pool in which the fields of one buffer were written. -/
theorem Pool.count_update (pool : Pool n) (b i : Fin n) (buffer : Buffer) (m : Nat) :
    Pool.count { pool with
        buffers := Function.update pool.buffers b buffer, buffersInUse := m } i =
      if i = b then buffer.referenceCount else pool.count i := by
  by_cases hi : i = b
  · subst hi
    simp [Pool.count]
  · simp [Pool.count, hi]

/-- The number of buffers in use after one count has changed. -/
theorem sum_inUse_update (pool : Pool n) (b : Fin n) (buffer : Buffer) (m : Nat) :
    (∑ i, inUse (Pool.count { pool with
        buffers := Function.update pool.buffers b buffer, buffersInUse := m } i)) +
        inUse (pool.count b) =
      (∑ i, inUse (pool.count i)) + inUse buffer.referenceCount :=
  Family.sum_update_add (fun _ x => inUse x.referenceCount) pool.buffers b buffer

/-- A new pool has no buffer in use. -/
theorem sysBufferPoolCreate_counted {blockCapacity : Nat} {outPool : Bool}
    {environment : SysErr}
    (h : sysBufferPoolCreate P n blockCapacity outPool environment = (.ok, some pool)) :
    pool.Counted P ∧ ∀ b, pool.count b = 0 := by
  unfold sysBufferPoolCreate at h
  by_cases hnull : outPool = false
  · rw [if_pos hnull] at h
    cases h
  · rw [if_neg hnull] at h
    split at h
    · cases h
    · rename_i hbad
      push Not at hbad
      split at h
      · cases h
      · obtain rfl : _ = pool := Option.some.inj (congrArg Prod.snd h)
        have hle : n ≤ P.sizeMax :=
          le_trans hbad.2.2.2 (Nat.div_le_self P.sizeMax P.bufferSize)
        refine ⟨⟨hle, ?_⟩, fun b => rfl⟩
        exact (Finset.sum_eq_zero fun b _ => rfl).symm

theorem sysBufferAcquire_spec (h : pool.Counted P) (outBuffer : Bool) :
    (∃ b, pool.count b = 0 ∧ (sysBufferAcquire P outBuffer pool).1 = .ok ∧
        (sysBufferAcquire P outBuffer pool).2.2 = some b ∧
        (sysBufferAcquire P outBuffer pool).2.1.Counted P ∧
        ∀ i, (sysBufferAcquire P outBuffer pool).2.1.count i =
          if i = b then 1 else pool.count i) ∨
      (∃ ret, ret ≠ .ok ∧ sysBufferAcquire P outBuffer pool = (ret, pool, none) ∧
        (outBuffer = true → ret = .busy ∧ ∀ b, pool.count b ≠ 0)) := by
  unfold sysBufferAcquire
  by_cases hnull : outBuffer = false
  · rw [if_pos hnull]
    refine Or.inr ⟨_, by decide, rfl, fun hout => ?_⟩
    rw [hnull] at hout
    cases hout
  · rw [if_neg hnull]
    cases hfree : (List.finRange n).find? fun b => (pool.buffers b).referenceCount = 0 with
    | none =>
        refine Or.inr ⟨_, by decide, rfl, fun _ => ⟨rfl, fun b hb => ?_⟩⟩
        have := List.find?_eq_none.mp hfree b (List.mem_finRange b)
        simp only [decide_eq_true_eq] at this
        exact this hb
    | some b =>
        have hb : pool.count b = 0 := by simpa [Pool.count] using List.find?_some hfree
        have hlt := h.in_use_lt hb
        have hle := h.blocks_le
        refine Or.inl ⟨b, hb, rfl, rfl, ⟨hle, ?_⟩, fun i => Pool.count_update ..⟩
        have hsum := sum_inUse_update pool b
          { size := 0, timestamp := 0, sequence := 0, generation := 0, type := 0
            version := 0, referenceCount := 1 } (P.wrap (pool.buffersInUse + 1))
        dsimp only at hsum ⊢
        rw [Platform.wrap_of_le (by omega)] at hsum ⊢
        rw [hb, ← h.in_use] at hsum
        simp only [inUse, if_true, Nat.add_zero] at hsum
        exact hsum.symm

theorem sysBufferRetain_spec (h : pool.Counted P) (buffer : Option (Fin n)) :
    (∃ b, buffer = some b ∧ pool.count b ≠ 0 ∧ (sysBufferRetain P buffer pool).1 = .ok ∧
        (sysBufferRetain P buffer pool).2.Counted P ∧
        ∀ i, (sysBufferRetain P buffer pool).2.count i =
          pool.count i + if i = b then 1 else 0) ∨
      (∃ ret, ret ≠ .ok ∧ sysBufferRetain P buffer pool = (ret, pool)) := by
  cases buffer with
  | none => exact Or.inr ⟨_, by decide, rfl⟩
  | some b =>
      simp only [sysBufferRetain]
      by_cases hz : (pool.buffers b).referenceCount = 0
      · rw [if_pos hz]
        exact Or.inr ⟨_, by decide, rfl⟩
      · rw [if_neg hz]
        by_cases hmax : (pool.buffers b).referenceCount = P.sizeMax
        · rw [if_pos hmax]
          exact Or.inr ⟨_, by decide, rfl⟩
        · rw [if_neg hmax]
          refine Or.inl ⟨b, rfl, hz, rfl, ⟨h.blocks_le, ?_⟩, fun i => ?_⟩
          · have hsum := sum_inUse_update pool b { pool.buffers b with
              referenceCount := (pool.buffers b).referenceCount + 1 } pool.buffersInUse
            have hone : inUse (pool.count b) = 1 := if_neg hz
            have htwo : inUse ((pool.buffers b).referenceCount + 1) = 1 :=
              if_neg (Nat.succ_ne_zero _)
            dsimp only at hsum ⊢
            rw [hone, htwo, ← h.in_use] at hsum
            omega
          · rw [Pool.count_update]
            by_cases hi : i = b
            · subst hi
              simp [Pool.count]
            · simp [hi]

/-- A release of a buffer that has a count. -/
theorem sysBufferRelease_spec (h : pool.Counted P) (hb : pool.count b ≠ 0) :
    (sysBufferRelease P (some b) pool).Counted P ∧
      ∀ i, (sysBufferRelease P (some b) pool).count i + (if i = b then 1 else 0) =
        pool.count i := by
  have hpos : (pool.buffers b).referenceCount > 0 := Nat.pos_of_ne_zero hb
  simp only [sysBufferRelease, if_pos hpos]
  constructor
  · refine ⟨h.blocks_le, ?_⟩
    have hsum := sum_inUse_update pool b { pool.buffers b with
      referenceCount := (pool.buffers b).referenceCount - 1 }
      (if (pool.buffers b).referenceCount - 1 = 0 then P.wrap (pool.buffersInUse + P.sizeMax)
        else pool.buffersInUse)
    have hone : inUse (pool.count b) = 1 := if_neg hb
    have huse := h.in_use_pos hb
    have hle := h.in_use_le
    have hn := h.blocks_le
    dsimp only at hsum ⊢
    rw [hone, ← h.in_use] at hsum
    by_cases hlast : (pool.buffers b).referenceCount - 1 = 0
    · -- the wrapped sum is the predecessor
      have hwrap : P.wrap (pool.buffersInUse + P.sizeMax) = pool.buffersInUse - 1 := by
        have hadd : pool.buffersInUse + P.sizeMax =
            (pool.buffersInUse - 1) + (P.sizeMax + 1) := by omega
        rw [Platform.wrap, hadd, Nat.add_mod_right, Nat.mod_eq_of_lt (by omega)]
      have hzero : inUse ((pool.buffers b).referenceCount - 1) = 0 := if_pos hlast
      rw [if_pos hlast] at hsum ⊢
      rw [hzero] at hsum
      rw [hwrap] at hsum ⊢
      omega
    · have hone' : inUse ((pool.buffers b).referenceCount - 1) = 1 := if_neg hlast
      rw [if_neg hlast] at hsum ⊢
      rw [hone'] at hsum
      omega
  · intro i
    rw [Pool.count_update]
    by_cases hi : i = b
    · subst hi
      simp only [if_true, Pool.count]
      omega
    · simp [hi]

end Counting

end Channel
end AppCore
