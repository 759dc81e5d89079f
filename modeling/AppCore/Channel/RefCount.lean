/-
  AppCore.Channel.RefCount

  The owners of a channel.  Any number of `sys_channel_retain` and `sys_channel_release` calls
  run interleaved, one atomic operation of `reference_count` at a time, and the release that
  finds the count at one takes the channel down.

  `owned` does not exist in the program: it counts the references each owner has.  Nothing
  keeps a `sys_channel_retain` of somebody who owns nothing from running late: here it then
  still reads the zero the last release has left.
-/

import AppCore.Channel.Fifo
import AppCore.Lib.Machine

namespace AppCore
namespace Channel

/-- Where a call is between two atomic operations. -/
inductive RefCall (O : Type*) where
  | notStarted
  /-- `sys_channel_retain`, for this owner, is about to exchange `references`. -/
  | retaining (o : O) (references : Nat)
  /-- `sys_channel_release` has found the count at one and has released the first `i` queued
      buffers. -/
  | tearingDown (i : Nat)
  | returned (ret : SysErr)
deriving DecidableEq, Repr

/-- A channel, the pool of its buffers, the calls and the owners. -/
structure RefSystem (K O : Type*) (n : Nat) where
  channel : SysChannel n
  pool : Pool n
  calls : K → RefCall O
  owned : O → Nat
  /-- The releases that found the count at one. -/
  teardowns : List K
  /-- The queue slots whose buffers were released, and by whom. -/
  visits : List (K × Nat)
  /-- The releases that freed the channel. -/
  freed : List K

/-- The atomic steps. -/
inductive RefEvent (K O : Type*) where
  /-- `sys_channel_retain` is called for the owner `o` and loads the count. -/
  | retain (k : K) (o : O)
  /-- The compare-and-exchange of a `sys_channel_retain`. -/
  | exchange (k : K) (spurious : Bool)
  /-- `sys_channel_release` is called for the owner `o` and decrements the count. -/
  | release (k : K) (o : O)
  /-- A teardown goes on. -/
  | teardown (k : K)
  /-- An owner hands a reference over. -/
  | hand (o o' : O)
deriving DecidableEq, Repr

section Step

variable {K O : Type*} {n : Nat} [DecidableEq K] [DecidableEq O] (P : Platform)

/-- The call `k` is now at `st`. -/
def RefSystem.setCall (s : RefSystem K O n) (k : K) (st : RefCall O) : RefSystem K O n :=
  { s with calls := Function.update s.calls k st }

/-- `sys_channel_retain` at the head of its loop. -/
def RefSystem.retainLoop (s : RefSystem K O n) (k : K) (o : O) (references : Nat) :
    RefSystem K O n :=
  match channelRetainLoop P references with
  | some ret => s.setCall k (.returned ret)
  | none => s.setCall k (.retaining o references)

/-- The owner `o` has one reference more. -/
def RefSystem.own (s : RefSystem K O n) (o : O) : RefSystem K O n :=
  { s with owned := Function.update s.owned o (s.owned o + 1) }

/-- The owner `o` has one reference less. -/
def RefSystem.disown (s : RefSystem K O n) (o : O) : RefSystem K O n :=
  { s with owned := Function.update s.owned o (s.owned o - 1) }

/-- One atomic step. -/
def refNext (s : RefSystem K O n) : RefEvent K O → Option (RefSystem K O n)
  | .retain k o =>
    if s.calls k = .notStarted then some (s.retainLoop P k o s.channel.referenceCount) else none
  | .exchange k spurious =>
    match s.calls k with
    | .retaining o references =>
      let (exchanged, references, ch) := channelExchange references spurious s.channel
      let s := { s with channel := ch }
      if exchanged then some ((s.own o).setCall k (.returned .ok))
      else some (s.retainLoop P k o references)
    | _ => none
  | .release k o =>
    if s.calls k = .notStarted then
      let (references, ch) := channelFetchSub P s.channel
      let s := { s.disown o with channel := ch }
      if references ≠ 1 then some (s.setCall k (.returned .ok))
      else some { s.setCall k (.tearingDown 0) with teardowns := s.teardowns ++ [k] }
    else none
  | .teardown k =>
    match s.calls k with
    | .tearingDown i =>
      if i < s.channel.count then
        let index := s.channel.index P i
        some ({ s with
          pool := sysBufferRelease P (s.channel.queue index) s.pool
          visits := s.visits ++ [(k, index)] }.setCall k (.tearingDown (i + 1)))
      else
        some ({ s with
          channel := { s.channel with count := 0 }
          freed := s.freed ++ [k] }.setCall k (.returned .ok))
    | _ => none
  | .hand o o' => if 0 < s.owned o then some ((s.disown o).own o') else none

/-- The contract of the owners: a release gives back a reference its caller owns. -/
def OwnsReference (s : RefSystem K O n) : RefEvent K O → Prop
  | .release _ o => 0 < s.owned o
  | _ => True

instance (s : RefSystem K O n) : ∀ e, Decidable (OwnsReference s e)
  | .retain _ _ => inferInstanceAs (Decidable True)
  | .exchange _ _ => inferInstanceAs (Decidable True)
  | .release _ o => inferInstanceAs (Decidable (0 < s.owned o))
  | .teardown _ => inferInstanceAs (Decidable True)
  | .hand _ _ => inferInstanceAs (Decidable True)

/-- A channel that somebody owns, with any queue, and no call on it yet.  The queue has its
    references of the buffers. -/
structure RefSystem.Fresh (P : Platform) (s : RefSystem K O n) : Prop where
  valid : s.channel.Valid P
  owned_finite : (Function.support s.owned).Finite
  count_eq : s.channel.referenceCount = ∑ᶠ o, s.owned o
  count_pos : 0 < s.channel.referenceCount
  count_le : s.channel.referenceCount ≤ P.uintMax
  counted : s.pool.Counted P
  queued : ∀ b, s.channel.items.count b ≤ s.pool.count b
  calls_eq : s.calls = fun _ => .notStarted
  teardowns_eq : s.teardowns = []
  visits_eq : s.visits = []
  freed_eq : s.freed = []

/-- The calls under all interleavings. -/
def refMachine (K O : Type*) (n : Nat) [DecidableEq K] [DecidableEq O] (P : Platform) :
    Machine (RefSystem K O n) (RefEvent K O) :=
  (Machine.ofNext (RefSystem.Fresh P) (refNext P)).restrict fun s e _ => OwnsReference s e

end Step

/-! ## Counting the owners -/

section Owners

variable {O : Type*} [DecidableEq O] {owned : O → Nat} {o : O}

theorem owned_add_finite (h : (Function.support owned).Finite) (o : O) (x : Nat) :
    (Function.support (Function.update owned o x)).Finite :=
  Family.support_update_finite (f := fun _ y => y) (g := owned) h o x

theorem sum_owned_add (h : (Function.support owned).Finite) (o : O) :
    (∑ᶠ i, Function.update owned o (owned o + 1) i) = (∑ᶠ i, owned i) + 1 := by
  have hsum := Family.finsum_update_add (f := fun _ y => y) (g := owned) h o (owned o + 1)
  omega

theorem sum_owned_sub (h : (Function.support owned).Finite) (ho : 0 < owned o) :
    (∑ᶠ i, Function.update owned o (owned o - 1) i) + 1 = ∑ᶠ i, owned i := by
  have hsum := Family.finsum_update_add (f := fun _ y => y) (g := owned) h o (owned o - 1)
  omega

omit [DecidableEq O] in
theorem owned_le_sum (h : (Function.support owned).Finite) (o : O) :
    owned o ≤ ∑ᶠ i, owned i :=
  single_le_finsum o h fun _ => Nat.zero_le _

end Owners

/-! ## The invariant -/

section Invariant

variable {K O : Type*} {n : Nat} {P : Platform} {s₀ s : RefSystem K O n} {k : K} {o : O}

/-- A call that takes the channel down. -/
def RefCall.TearingDown (st : RefCall O) : Prop := ∃ i, st = .tearingDown i

/-- The queue of a channel is still the one it had in `ch₀`. -/
structure SameQueue (ch₀ ch : SysChannel n) : Prop where
  queue : ch.queue = ch₀.queue
  head : ch.head = ch₀.head
  capacity : ch.capacity = ch₀.capacity

/-- The slots the call `k` has visited after `i` iterations. -/
def visitedSlots (P : Platform) (ch : SysChannel n) (k : K) (i : Nat) : List (K × Nat) :=
  (List.range i).map fun j => (k, ch.index P j)

/-- Of the queue's references of the buffers in `ch₀`, the first `i` are given back. -/
structure GaveBack (P : Platform) (ch₀ : SysChannel n) (pool₀ : Pool n) (i : Nat)
    (pool : Pool n) : Prop where
  counted : pool.Counted P
  counts : ∀ b, pool.count b + (ch₀.items.take i).count b = pool₀.count b

/-- Nobody has taken the channel down yet, the release `k` is doing it, or it has done it. -/
inductive Stage (P : Platform) (s₀ s : RefSystem K O n) : Prop
  | alive : 0 < s.channel.referenceCount → s.teardowns = [] → s.visits = [] → s.freed = [] →
      s.channel.count = s₀.channel.count → s.pool = s₀.pool →
      (∀ k, ¬ (s.calls k).TearingDown) → Stage P s₀ s
  | dying {k : K} {i : Nat} : s.channel.referenceCount = 0 → s.teardowns = [k] →
      s.visits = visitedSlots P s₀.channel k i → s.freed = [] →
      s.channel.count = s₀.channel.count → i ≤ s₀.channel.count →
      GaveBack P s₀.channel s₀.pool i s.pool → s.calls k = .tearingDown i →
      (∀ k', k' ≠ k → ¬ (s.calls k').TearingDown) → Stage P s₀ s
  | freed {k : K} : s.channel.referenceCount = 0 → s.teardowns = [k] →
      s.visits = visitedSlots P s₀.channel k s₀.channel.count → s.freed = [k] →
      GaveBack P s₀.channel s₀.pool s₀.channel.count s.pool →
      (∀ k', ¬ (s.calls k').TearingDown) → Stage P s₀ s

/-- What holds in every state of a run from `s₀`. -/
structure RefInv (P : Platform) (s₀ s : RefSystem K O n) : Prop where
  owned_finite : (Function.support s.owned).Finite
  count_eq : s.channel.referenceCount = ∑ᶠ o, s.owned o
  count_le : s.channel.referenceCount ≤ P.uintMax
  same : SameQueue s₀.channel s.channel
  /-- A retain only goes on to exchange a count that can be raised. -/
  retaining : ∀ k o references, s.calls k = .retaining o references →
    references ≠ 0 ∧ references ≠ P.uintMax
  stage : Stage P s₀ s

theorem RefSystem.Fresh.inv (h : s₀.Fresh P) : RefInv P s₀ s₀ where
  owned_finite := h.owned_finite
  count_eq := h.count_eq
  count_le := h.count_le
  same := ⟨rfl, rfl, rfl⟩
  retaining k o references hk := by
    rw [h.calls_eq] at hk
    cases hk
  stage := by
    refine .alive h.count_pos h.teardowns_eq h.visits_eq h.freed_eq rfl rfl fun k hk => ?_
    obtain ⟨i, hi⟩ := hk
    rw [h.calls_eq] at hi
    cases hi

/-- Somebody owns the channel: nobody has taken it down. -/
theorem RefInv.count_pos (h : RefInv P s₀ s) (ho : 0 < s.owned o) :
    0 < s.channel.referenceCount := by
  have hle := owned_le_sum h.owned_finite o
  rw [← h.count_eq] at hle
  omega

section Calls

variable [DecidableEq K]

theorem RefSystem.setCall_self (s : RefSystem K O n) (k : K) (st : RefCall O) :
    (s.setCall k st).calls k = st := Function.update_self ..

theorem RefSystem.setCall_of_ne (s : RefSystem K O n) {k k' : K} (h : k' ≠ k) (st : RefCall O) :
    (s.setCall k st).calls k' = s.calls k' := Function.update_of_ne h ..

/-- A call that does not take the channel down has moved, and nothing else. -/
theorem Stage.setCall {st : RefCall O} (h : Stage P s₀ s)
    (hk : ¬ (s.calls k).TearingDown) (hst : ¬ st.TearingDown) :
    Stage P s₀ (s.setCall k st) := by
  have hnone : ∀ k', ¬ (s.calls k').TearingDown → ¬ ((s.setCall k st).calls k').TearingDown := by
    intro k' hk'
    by_cases hkk : k' = k
    · rw [hkk, RefSystem.setCall_self]
      exact hst
    · rw [RefSystem.setCall_of_ne s hkk]
      exact hk'
  cases h with
  | alive hpos htear hvisits hfreed hcount hpool hcalls =>
      exact .alive hpos htear hvisits hfreed hcount hpool fun k' => hnone k' (hcalls k')
  | @dying kd i hzero htear hvisits hfreed hcount hi hback hkd hcalls =>
      have hne : kd ≠ k := by
        rintro rfl
        exact hk ⟨i, hkd⟩
      refine .dying hzero htear hvisits hfreed hcount hi hback ?_ fun k' hk' =>
        hnone k' (hcalls k' hk')
      rw [RefSystem.setCall_of_ne s hne]
      exact hkd
  | freed hzero htear hvisits hfreed hback hcalls =>
      exact .freed hzero htear hvisits hfreed hback fun k' => hnone k' (hcalls k')

theorem RefInv.setCall {st : RefCall O} (h : RefInv P s₀ s)
    (hk : ¬ (s.calls k).TearingDown) (hst : ¬ st.TearingDown)
    (hret : ∀ o references, st = .retaining o references →
      references ≠ 0 ∧ references ≠ P.uintMax) : RefInv P s₀ (s.setCall k st) where
  owned_finite := h.owned_finite
  count_eq := h.count_eq
  count_le := h.count_le
  same := h.same
  retaining k' o references hk' := by
    by_cases hkk : k' = k
    · rw [hkk, RefSystem.setCall_self] at hk'
      exact hret o references hk'
    · rw [RefSystem.setCall_of_ne s hkk] at hk'
      exact h.retaining k' o references hk'
  stage := h.stage.setCall hk hst

/-- The head of the loop of a retain returns or goes on to exchange. -/
theorem RefInv.retainLoop (h : RefInv P s₀ s) (hk : ¬ (s.calls k).TearingDown)
    (references : Nat) : RefInv P s₀ (s.retainLoop P k o references) := by
  have hreturned : ∀ {ret}, ¬ (RefCall.returned (O := O) ret).TearingDown := by
    rintro ret ⟨i, hi⟩
    cases hi
  unfold RefSystem.retainLoop channelRetainLoop
  by_cases hzero : references = 0
  · rw [if_pos hzero]
    exact h.setCall hk hreturned fun _ _ heq => by cases heq
  rw [if_neg hzero]
  by_cases hmax : references = P.uintMax
  · rw [if_pos hmax]
    exact h.setCall hk hreturned fun _ _ heq => by cases heq
  rw [if_neg hmax]
  refine h.setCall hk ?_ fun o' references' heq => ?_
  · rintro ⟨i, hi⟩
    cases hi
  · cases heq
    exact ⟨hzero, hmax⟩

end Calls

section Owned

variable [DecidableEq O]

/-- The count goes up with the references of an owner. -/
theorem RefInv.own (h : RefInv P s₀ s) (hpos : 0 < s.channel.referenceCount)
    (hlt : s.channel.referenceCount < P.uintMax) :
    RefInv P s₀ { s.own o with
      channel := { s.channel with referenceCount := s.channel.referenceCount + 1 } } where
  owned_finite := owned_add_finite h.owned_finite o _
  count_eq := by
    have hsum : (∑ᶠ i, (s.own o).owned i) = _ := sum_owned_add h.owned_finite o
    rw [← h.count_eq] at hsum
    exact hsum.symm
  count_le := hlt
  same := ⟨h.same.queue, h.same.head, h.same.capacity⟩
  retaining := h.retaining
  stage := by
    cases h.stage with
    | alive _ htear hvisits hfreed hcount hpool hcalls =>
        exact .alive (Nat.succ_pos _) htear hvisits hfreed hcount hpool hcalls
    | dying hzero => omega
    | freed hzero => omega

/-- The decrement of a release whose caller owns a reference. -/
theorem RefInv.fetchSub (h : RefInv P s₀ s) (ho : 0 < s.owned o) :
    (channelFetchSub P s.channel).2 =
        { s.channel with referenceCount := s.channel.referenceCount - 1 } ∧
      s.channel.referenceCount - 1 = ∑ᶠ i, (s.disown o).owned i := by
  have hpos := h.count_pos ho
  have hle := h.count_le
  have hsum : (∑ᶠ i, (s.disown o).owned i) + 1 = _ := sum_owned_sub h.owned_finite ho
  rw [← h.count_eq] at hsum
  constructor
  · have hsub : s.channel.referenceCount + P.uintMax =
        (s.channel.referenceCount - 1) + (P.uintMax + 1) := by omega
    have hmod : (s.channel.referenceCount + P.uintMax) % (P.uintMax + 1) =
        s.channel.referenceCount - 1 := by
      rw [hsub, Nat.add_mod_right, Nat.mod_eq_of_lt (by omega)]
    rw [channelFetchSub, hmod]
  · omega

/-- A release that leaves an owner. -/
theorem RefInv.release (h : RefInv P s₀ s) (ho : 0 < s.owned o)
    (hne : s.channel.referenceCount ≠ 1) :
    RefInv P s₀ { s.disown o with
      channel := { s.channel with referenceCount := s.channel.referenceCount - 1 } } where
  owned_finite := owned_add_finite h.owned_finite o _
  count_eq := (h.fetchSub ho).2
  count_le := (Nat.sub_le _ 1).trans h.count_le
  same := ⟨h.same.queue, h.same.head, h.same.capacity⟩
  retaining := h.retaining
  stage := by
    have hpos := h.count_pos ho
    cases h.stage with
    | alive _ htear hvisits hfreed hcount hpool hcalls =>
        refine .alive ?_ htear hvisits hfreed hcount hpool hcalls
        show 0 < s.channel.referenceCount - 1
        omega
    | dying hzero => omega
    | freed hzero => omega

/-- Handing a reference over keeps the number of references. -/
theorem RefInv.hand {o' : O} (h : RefInv P s₀ s) (ho : 0 < s.owned o) :
    RefInv P s₀ ((s.disown o).own o') where
  owned_finite := owned_add_finite (owned_add_finite h.owned_finite o _) o' _
  count_eq := by
    have hsub : (∑ᶠ i, (s.disown o).owned i) + 1 = _ := sum_owned_sub h.owned_finite ho
    have hfin : (Function.support (s.disown o).owned).Finite :=
      owned_add_finite h.owned_finite o _
    have hadd : (∑ᶠ i, ((s.disown o).own o').owned i) = _ := sum_owned_add hfin o'
    rw [hadd, hsub]
    exact h.count_eq
  count_le := h.count_le
  same := h.same
  retaining := h.retaining
  stage := by
    cases h.stage with
    | alive hpos htear hvisits hfreed hcount hpool hcalls =>
        exact .alive hpos htear hvisits hfreed hcount hpool hcalls
    | dying hzero htear hvisits hfreed hcount hi hback hkd hcalls =>
        exact .dying hzero htear hvisits hfreed hcount hi hback hkd hcalls
    | freed hzero htear hvisits hfreed hback hcalls =>
        exact .freed hzero htear hvisits hfreed hback hcalls

/-- The release of the last owner begins the teardown. -/
theorem RefInv.lastRelease [DecidableEq K] (h : RefInv P s₀ s) (h₀ : s₀.Fresh P)
    (ho : 0 < s.owned o) (hone : s.channel.referenceCount = 1) :
    RefInv P s₀ { ({ s.disown o with
      channel := { s.channel with referenceCount := s.channel.referenceCount - 1 } } :
        RefSystem K O n).setCall k (.tearingDown 0) with teardowns := s.teardowns ++ [k] } where
  owned_finite := owned_add_finite h.owned_finite o _
  count_eq := (h.fetchSub ho).2
  count_le := (Nat.sub_le _ 1).trans h.count_le
  same := ⟨h.same.queue, h.same.head, h.same.capacity⟩
  retaining k' o' references hk' := by
    by_cases hkk : k' = k
    · have hself : Function.update s.calls k (.tearingDown 0) k' = .tearingDown 0 := by
        rw [hkk, Function.update_self]
      cases hself.symm.trans hk'
    · refine h.retaining k' o' references (Eq.trans ?_ hk')
      exact (Function.update_of_ne hkk (.tearingDown 0) s.calls).symm
  stage := by
    cases h.stage with
    | alive _ htear hvisits hfreed hcount hpool hcalls =>
        refine .dying (k := k) (i := 0) ?_ ?_ hvisits hfreed hcount (Nat.zero_le _) ?_
          (Function.update_self ..) fun k' hne hk' => hcalls k' ?_
        · show s.channel.referenceCount - 1 = 0
          omega
        · show s.teardowns ++ [k] = [k]
          rw [htear]
          rfl
        · refine ⟨?_, fun b => ?_⟩
          · show s.pool.Counted P
            rw [hpool]
            exact h₀.counted
          · show s.pool.count b + _ = _
            rw [hpool, List.take_zero, List.count_nil]
            rfl
        · obtain ⟨i, hi⟩ := hk'
          have hother : Function.update s.calls k (.tearingDown 0) k' = s.calls k' :=
            Function.update_of_ne hne ..
          exact ⟨i, hother.symm.trans hi⟩
    | dying hzero => omega
    | freed hzero => omega

end Owned

/-! ## The teardown -/

/-- One iteration gives the buffer of the next slot back. -/
theorem GaveBack.next {i : Nat} (h₀ : s₀.Fresh P) (hi : i < s₀.channel.count)
    (h : GaveBack P s₀.channel s₀.pool i s.pool) :
    GaveBack P s₀.channel s₀.pool (i + 1)
      (sysBufferRelease P (s₀.channel.queue (s₀.channel.index P i)) s.pool) := by
  have hlen := h₀.valid.length_items
  obtain ⟨b, hb⟩ : ∃ b, s₀.channel.items[i]? = some b :=
    ⟨_, List.getElem?_eq_getElem (by omega)⟩
  have hcap := h₀.valid.count_le
  -- the slot `i` places behind the head holds the element `i` of the queue
  have hslot : s₀.channel.queue (s₀.channel.index P i) = some b := by
    have hfilled := congrArg (fun l => l[i]?) h₀.valid.filled
    rw [List.getElem?_map, hb, Ring.window, List.getElem?_map, List.getElem?_range hi] at hfilled
    rw [h₀.valid.index_eq (by omega)]
    exact Option.some.inj hfilled
  have htake : s₀.channel.items.take (i + 1) = s₀.channel.items.take i ++ [b] := by
    rw [List.take_add_one, hb]
    rfl
  have hbound : (s₀.channel.items.take (i + 1)).count b ≤ s₀.pool.count b := by
    refine le_trans ?_ (h₀.queued b)
    exact (List.take_sublist _ _).count_le b
  have hcounts := h.counts b
  rw [htake, List.count_append, List.count_singleton_self] at hbound
  obtain ⟨hcounted, hrelease⟩ := sysBufferRelease_spec h.counted (b := b) (by omega)
  rw [hslot]
  refine ⟨hcounted, fun j => ?_⟩
  have hj := hrelease j
  have hold := h.counts j
  rw [htake, List.count_append]
  by_cases hjb : j = b
  · rw [if_pos hjb] at hj
    rw [hjb, List.count_singleton_self]
    rw [hjb] at hj hold
    omega
  · rw [if_neg hjb] at hj
    have hnone : [b].count j = 0 := List.count_eq_zero.mpr fun hm => hjb (List.mem_singleton.mp hm)
    omega

/-- Where a teardown that goes on stands. -/
theorem RefInv.tearing (h : RefInv P s₀ s) {i : Nat} (hk : s.calls k = .tearingDown i) :
    s.channel.referenceCount = 0 ∧ s.teardowns = [k] ∧
      s.visits = visitedSlots P s₀.channel k i ∧ s.freed = [] ∧
      s.channel.count = s₀.channel.count ∧ i ≤ s₀.channel.count ∧
      GaveBack P s₀.channel s₀.pool i s.pool ∧
      ∀ k', k' ≠ k → ¬ (s.calls k').TearingDown := by
  cases h.stage with
  | alive _ _ _ _ _ _ hcalls => exact absurd ⟨i, hk⟩ (hcalls k)
  | @dying kd j hzero htear hvisits hfreed hcount hi hback hkd hcalls =>
      have hkk : k = kd := by
        by_contra hne
        exact hcalls k hne ⟨i, hk⟩
      subst hkk
      rw [hk] at hkd
      cases hkd
      exact ⟨hzero, htear, hvisits, hfreed, hcount, hi, hback, hcalls⟩
  | freed _ _ _ _ _ hcalls => exact absurd ⟨i, hk⟩ (hcalls k)

section Calls

variable [DecidableEq K]

theorem RefInv.visit (h : RefInv P s₀ s) (h₀ : s₀.Fresh P) {i : Nat}
    (hk : s.calls k = .tearingDown i) (hi : i < s.channel.count) :
    RefInv P s₀ (({ s with
      pool := sysBufferRelease P (s.channel.queue (s.channel.index P i)) s.pool
      visits := s.visits ++ [(k, s.channel.index P i)] } : RefSystem K O n).setCall k
        (.tearingDown (i + 1))) where
  owned_finite := h.owned_finite
  count_eq := h.count_eq
  count_le := h.count_le
  same := h.same
  retaining k' o references hk' := by
    by_cases hkk : k' = k
    · rw [hkk, RefSystem.setCall_self] at hk'
      cases hk'
    · rw [RefSystem.setCall_of_ne _ hkk] at hk'
      exact h.retaining k' o references hk'
  stage := by
    obtain ⟨hzero, htear, hvisits, hfreed, hcount, -, hback, hcalls⟩ := h.tearing hk
    rw [hcount] at hi
    have hindex : s.channel.index P i = s₀.channel.index P i := by
      rw [SysChannel.index, SysChannel.index, h.same.head, h.same.capacity]
    refine .dying hzero htear ?_ hfreed hcount hi ?_ (RefSystem.setCall_self ..)
      fun k' hne => ?_
    · show s.visits ++ [(k, s.channel.index P i)] = _
      rw [visitedSlots, List.range_succ, List.map_append, hvisits, hindex]
      rfl
    · show GaveBack P s₀.channel s₀.pool (i + 1)
        (sysBufferRelease P (s.channel.queue (s.channel.index P i)) s.pool)
      rw [hindex, h.same.queue]
      exact hback.next h₀ hi
    · rw [RefSystem.setCall_of_ne _ hne]
      exact hcalls k' hne

theorem RefInv.free (h : RefInv P s₀ s) {i : Nat} (hk : s.calls k = .tearingDown i)
    (hi : ¬ i < s.channel.count) :
    RefInv P s₀ (({ s with
      channel := { s.channel with count := 0 }
      freed := s.freed ++ [k] } : RefSystem K O n).setCall k (.returned .ok)) where
  owned_finite := h.owned_finite
  count_eq := h.count_eq
  count_le := h.count_le
  same := ⟨h.same.queue, h.same.head, h.same.capacity⟩
  retaining k' o references hk' := by
    by_cases hkk : k' = k
    · rw [hkk, RefSystem.setCall_self] at hk'
      cases hk'
    · rw [RefSystem.setCall_of_ne _ hkk] at hk'
      exact h.retaining k' o references hk'
  stage := by
    obtain ⟨hzero, htear, hvisits, hfreed, hcount, hle, hback, hcalls⟩ := h.tearing hk
    obtain rfl : i = s₀.channel.count := by omega
    refine .freed (k := k) hzero htear hvisits ?_ hback fun k' => ?_
    · show s.freed ++ [k] = [k]
      rw [hfreed]
      rfl
    · by_cases hne : k' = k
      · rw [hne, RefSystem.setCall_self]
        rintro ⟨j, hj⟩
        cases hj
      · rw [RefSystem.setCall_of_ne _ hne]
        exact hcalls k' hne

end Calls

/-! ## Every step -/

/-- What a step does to the count, and which steps begin a teardown. -/
structure RefStep (s : RefSystem K O n) (e : RefEvent K O) (s' : RefSystem K O n) : Prop where
  zero : s.channel.referenceCount = 0 → s'.channel.referenceCount = 0
  near : s'.channel.referenceCount = s.channel.referenceCount ∨
    s'.channel.referenceCount = s.channel.referenceCount + 1 ∨
    s'.channel.referenceCount + 1 = s.channel.referenceCount
  began : s'.teardowns ≠ s.teardowns → ∃ k o, e = .release k o ∧
    s'.teardowns = s.teardowns ++ [k] ∧ s.channel.referenceCount = 1 ∧
    s'.channel.referenceCount = 0

/-- A step that leaves the count and begins no teardown. -/
theorem RefStep.same {e : RefEvent K O} {s' : RefSystem K O n}
    (hcount : s'.channel.referenceCount = s.channel.referenceCount)
    (htear : s'.teardowns = s.teardowns) : RefStep s e s' where
  zero hzero := hcount.trans hzero
  near := Or.inl hcount
  began hne := absurd htear hne

section Next

variable [DecidableEq K] [DecidableEq O] {s' : RefSystem K O n}

omit [DecidableEq O] in
theorem RefSystem.retainLoop_same (s : RefSystem K O n) (k : K) (o : O) (references : Nat) :
    (s.retainLoop P k o references).channel = s.channel ∧
      (s.retainLoop P k o references).teardowns = s.teardowns := by
  unfold RefSystem.retainLoop
  split <;> exact ⟨rfl, rfl⟩

theorem RefInv.exchange_next {references : Nat} {spurious : Bool} {e : RefEvent K O}
    (h : RefInv P s₀ s) (hk : s.calls k = .retaining o references)
    (hstep : refNext P s (.exchange k spurious) = some s') : RefInv P s₀ s' ∧ RefStep s e s' := by
  have hnot : ¬ (s.calls k).TearingDown := by
    rw [hk]
    rintro ⟨i, hi⟩
    cases hi
  obtain ⟨hzero, hmax⟩ := h.retaining k o references hk
  have hle := h.count_le
  by_cases hex : s.channel.referenceCount = references ∧ spurious = false
  · -- the copy was up to date, and the count is raised
    simp only [refNext, hk, channelExchange, if_pos hex, if_true] at hstep
    rw [← hex.1] at hstep hzero hmax
    obtain rfl := Option.some.inj hstep
    have hup := h.own (o := o) (by omega) (by omega)
    refine ⟨hup.setCall hnot ?_ ?_, fun hz => absurd hz hzero, Or.inr (Or.inl rfl),
      fun hne => absurd rfl hne⟩
    · rintro ⟨i, hi⟩
      cases hi
    · intro _ _ hret
      cases hret
  · -- the copy is reloaded
    simp only [refNext, hk, channelExchange, if_neg hex, if_neg Bool.false_ne_true] at hstep
    obtain rfl := Option.some.inj hstep
    obtain ⟨hchannel, htear⟩ := s.retainLoop_same (P := P) k o s.channel.referenceCount
    exact ⟨h.retainLoop hnot _, RefStep.same (congrArg _ hchannel) htear⟩

theorem RefInv.release_next (h : RefInv P s₀ s) (h₀ : s₀.Fresh P) (hk : s.calls k = .notStarted)
    (ho : 0 < s.owned o) (hstep : refNext P s (.release k o) = some s') :
    RefInv P s₀ s' ∧ RefStep s (.release k o) s' := by
  have hnot : ¬ (s.calls k).TearingDown := by
    rw [hk]
    rintro ⟨i, hi⟩
    cases hi
  have hpos := h.count_pos ho
  obtain ⟨hsub, -⟩ := h.fetchSub ho
  have hfirst : (channelFetchSub P s.channel).1 = s.channel.referenceCount := rfl
  simp only [refNext, if_pos hk] at hstep
  rw [hfirst, hsub] at hstep
  by_cases hone : s.channel.referenceCount = 1
  · rw [if_neg (not_not_intro hone)] at hstep
    obtain rfl := Option.some.inj hstep
    have hzero : s.channel.referenceCount - 1 = 0 := by omega
    have hnear : s.channel.referenceCount - 1 + 1 = s.channel.referenceCount := by omega
    exact ⟨h.lastRelease h₀ ho hone, fun hz => by omega, Or.inr (Or.inr hnear),
      fun _ => ⟨k, o, rfl, rfl, hone, hzero⟩⟩
  · rw [if_pos hone] at hstep
    obtain rfl := Option.some.inj hstep
    have hnear : s.channel.referenceCount - 1 + 1 = s.channel.referenceCount := by omega
    refine ⟨(h.release ho hone).setCall hnot ?_ ?_, fun hz => by omega, Or.inr (Or.inr hnear),
      fun hne => absurd rfl hne⟩
    · rintro ⟨i, hi⟩
      cases hi
    · intro _ _ hret
      cases hret

theorem RefInv.teardown_next {i : Nat} (h : RefInv P s₀ s) (h₀ : s₀.Fresh P)
    (hk : s.calls k = .tearingDown i) (hstep : refNext P s (.teardown k) = some s') :
    RefInv P s₀ s' ∧ RefStep s (.teardown k) s' := by
  simp only [refNext, hk] at hstep
  by_cases hi : i < s.channel.count
  · rw [if_pos hi] at hstep
    obtain rfl := Option.some.inj hstep
    exact ⟨h.visit h₀ hk hi, RefStep.same rfl rfl⟩
  · rw [if_neg hi] at hstep
    obtain rfl := Option.some.inj hstep
    exact ⟨h.free hk hi, RefStep.same rfl rfl⟩

/-- Every step keeps the invariant. -/
theorem RefInv.next (h : RefInv P s₀ s) (h₀ : s₀.Fresh P) {e : RefEvent K O}
    (howns : OwnsReference s e) (hstep : refNext P s e = some s') :
    RefInv P s₀ s' ∧ RefStep s e s' := by
  cases e with
  | retain k o =>
      simp only [refNext] at hstep
      split at hstep
      · rename_i hk
        obtain rfl := Option.some.inj hstep
        obtain ⟨hchannel, htear⟩ := s.retainLoop_same (P := P) k o s.channel.referenceCount
        refine ⟨h.retainLoop ?_ _, RefStep.same (congrArg _ hchannel) htear⟩
        rw [hk]
        rintro ⟨i, hi⟩
        cases hi
      · cases hstep
  | exchange k spurious =>
      cases hk : s.calls k with
      | retaining o references => exact h.exchange_next hk hstep
      | _ =>
          simp only [refNext, hk] at hstep
          cases hstep
  | release k o =>
      by_cases hk : s.calls k = .notStarted
      · exact h.release_next h₀ hk howns hstep
      · simp only [refNext, if_neg hk] at hstep
        cases hstep
  | teardown k =>
      cases hk : s.calls k with
      | tearingDown i => exact h.teardown_next h₀ hk hstep
      | _ =>
          simp only [refNext, hk] at hstep
          cases hstep
  | hand o o' =>
      simp only [refNext] at hstep
      split at hstep
      · rename_i ho
        obtain rfl := Option.some.inj hstep
        exact ⟨h.hand ho, RefStep.same rfl rfl⟩
      · cases hstep

theorem RefInv.of_run {es : List (RefEvent K O)} (h₀ : s₀.Fresh P)
    (hrun : (refMachine K O n P).Run s₀ es s) : RefInv P s₀ s := by
  refine hrun.invariant (I := RefInv P s₀) ?_ h₀.inv
  intro u e v hu hstep
  exact (hu.next h₀ hstep.2 hstep.1).1

end Next

/-! ## Teardown happens once -/

/-- The teardown of `k`, from the channel and the pool it found, is complete: it has given
    back every queued buffer, visiting the slots of the queue once each. -/
structure TornDown (ch₀ : SysChannel n) (pool₀ : Pool n) (s : RefSystem K O n) (k : K) :
    Prop where
  once : s.teardowns = [k] ∧ s.freed = [k]
  visits : s.visits =
    (List.range ch₀.count).map fun i => (k, (ch₀.head + i) % ch₀.capacity)
  distinct : s.visits.Nodup
  gave_back : ∀ b, s.pool.count b + ch₀.items.count b = pool₀.count b

theorem RefInv.tornDown (h : RefInv P s₀ s) (h₀ : s₀.Fresh P) (hk : k ∈ s.freed) :
    TornDown s₀.channel s₀.pool s k := by
  have hvalid := h₀.valid
  cases h.stage with
  | alive _ _ _ hfreed =>
      rw [hfreed] at hk
      cases hk
  | dying _ _ _ hfreed =>
      rw [hfreed] at hk
      cases hk
  | @freed k' _ htear hvisits hfreed hback =>
      obtain rfl : k = k' := by
        rw [hfreed] at hk
        exact List.mem_singleton.mp hk
      have hcount := hvalid.count_le
      have hslots : s.visits = (List.range s₀.channel.count).map
          fun i => (k, (s₀.channel.head + i) % s₀.channel.capacity) := by
        rw [hvisits, visitedSlots]
        refine List.map_congr_left fun i hi => ?_
        have hi : i < s₀.channel.count := List.mem_range.mp hi
        rw [hvalid.index_eq (by omega)]
      refine ⟨⟨htear, hfreed⟩, hslots, ?_, fun b => ?_⟩
      · rw [hslots]
        refine List.Nodup.map_on (fun i hi j hj heq => ?_) List.nodup_range
        have hi : i < s₀.channel.count := List.mem_range.mp hi
        have hj : j < s₀.channel.count := List.mem_range.mp hj
        exact Ring.index_injective (by omega) (by omega) (Prod.mk.inj heq).2
      · have hb := hback.counts b
        rwa [← hvalid.length_items, List.take_length] at hb

section Once

variable [DecidableEq K] [DecidableEq O]

/-- For every interleaving of the atomic steps: the count is the number of references that are
    owned, it moves by one at a time and stays at zero, and at `UINT_MAX` a retain returns
    `SYS_ERR_OVERFLOW` and does nothing; as long as somebody owns the channel nobody takes it
    down, and otherwise one release does, the one that gave the last reference back; when it
    has freed the channel it has visited the slots of the queue and given each buffer back. -/
theorem teardown_once {es : List (RefEvent K O)} (h₀ : s₀.Fresh P)
    (hrun : (refMachine K O n P).Run s₀ es s) :
    ((Function.support s.owned).Finite ∧ s.channel.referenceCount = ∑ᶠ o, s.owned o ∧
      s.channel.referenceCount ≤ P.uintMax) ∧
    (∀ e s', (refMachine K O n P).step s e s' → RefStep s e s') ∧
    (s.channel.referenceCount = P.uintMax →
      (∀ k o, s.calls k = .notStarted →
        refNext P s (.retain k o) = some (s.setCall k (.returned .overflow))) ∧
      ∀ k o references spurious, s.calls k = .retaining o references →
        refNext P s (.exchange k spurious) = some (s.setCall k (.returned .overflow))) ∧
    (0 < (∑ᶠ o, s.owned o) → s.teardowns = []) ∧
    ((∑ᶠ o, s.owned o) = 0 → ∃ k, s.teardowns = [k]) ∧
    ∀ k ∈ s.freed, TornDown s₀.channel s₀.pool s k := by
  have h := RefInv.of_run h₀ hrun
  refine ⟨⟨h.owned_finite, h.count_eq, h.count_le⟩, ?_, fun hmax => ?_, fun hpos => ?_,
    fun hzero => ?_, fun k hk => h.tornDown h₀ hk⟩
  · exact fun e s' hstep => (h.next h₀ hstep.2 hstep.1).2
  · -- the loop of a retain that sees `UINT_MAX` returns
    have hstart := h₀.count_pos
    have hle := h₀.count_le
    have hloop : ∀ k o, s.retainLoop P k o s.channel.referenceCount =
        s.setCall k (.returned .overflow) := by
      intro k o
      unfold RefSystem.retainLoop channelRetainLoop
      rw [hmax, if_neg (by omega), if_pos rfl]
    refine ⟨fun k o hk => ?_, fun k o references spurious hk => ?_⟩
    · simp only [refNext, if_pos hk, hloop]
    · have hne := (h.retaining k o references hk).2
      have hex : ¬ (s.channel.referenceCount = references ∧ spurious = false) := by
        rintro ⟨heq, -⟩
        omega
      simp only [refNext, hk, channelExchange, if_neg hex, if_neg Bool.false_ne_true]
      exact congrArg some (hloop k o)
  · rw [← h.count_eq] at hpos
    cases h.stage with
    | alive _ htear => exact htear
    | dying hz => omega
    | freed hz => omega
  · rw [← h.count_eq] at hzero
    cases h.stage with
    | alive hpos => omega
    | @dying k i _ htear => exact ⟨k, htear⟩
    | @freed k _ htear => exact ⟨k, htear⟩

end Once

end Invariant

/-- A channel of capacity 2 with one owner: the queue holds the only buffer twice and wraps
    around. -/
def wrappedQueue : RefSystem (Fin 2) Unit 1 where
  channel := {
    queue := fun _ => some 0
    capacity := 2
    head := 1
    count := 2
    closed := false
    fullPolicy := fullFail
    stats := { capacity := 2 }
    referenceCount := 1 }
  pool := {
    buffers := fun _ => { referenceCount := 3 }
    blockCapacity := 16
    buffersInUse := 1 }
  calls := fun _ => .notStarted
  owned := fun _ => 1
  teardowns := []
  visits := []
  freed := []

theorem wrappedQueue_fresh : wrappedQueue.Fresh .lp64 where
  valid := ⟨by decide, by decide, by decide, by decide, rfl⟩
  owned_finite := Set.toFinite _
  count_eq := by
    rw [finsum_unique]
    rfl
  count_pos := by decide
  count_le := by decide
  counted := ⟨by decide, by decide⟩
  queued b := by
    rw [Subsingleton.elim b 0]
    decide
  calls_eq := rfl
  teardowns_eq := rfl
  visits_eq := rfl
  freed_eq := rfl

/-- The owner gives its reference back while somebody else retains: the exchange finds zero,
    and the buffer is given back for both slots. -/
theorem teardown_once_late_retain :
    ∃ s, (refMachine (Fin 2) Unit 1 .lp64).Run wrappedQueue
        [.retain 0 (), .release 1 (), .exchange 0 false, .teardown 1, .teardown 1,
          .teardown 1] s ∧
      s.calls 0 = .returned .closed ∧ s.visits = [(1, 1), (1, 0)] ∧
      TornDown wrappedQueue.channel wrappedQueue.pool s 1 := by
  obtain ⟨s, hexec⟩ : ∃ s, Machine.execIf (refNext .lp64) OwnsReference wrappedQueue
      [.retain 0 (), .release 1 (), .exchange 0 false, .teardown 1, .teardown 1,
        .teardown 1] = some s := Option.isSome_iff_exists.mp (by decide)
  have hend : s.calls 0 = .returned .closed ∧ s.visits = [(1, 1), (1, 0)] ∧ s.freed = [1] := by
    have hget : s = (Machine.execIf (refNext .lp64) OwnsReference wrappedQueue
        [.retain 0 (), .release 1 (), .exchange 0 false, .teardown 1, .teardown 1,
          .teardown 1]).get (by decide) := by
      simp only [hexec, Option.get_some]
    rw [hget]
    decide
  have hrun : (refMachine (Fin 2) Unit 1 .lp64).Run wrappedQueue _ s :=
    Machine.Run.of_execIf hexec
  refine ⟨s, hrun, hend.1, hend.2.1, ?_⟩
  refine (teardown_once wrappedQueue_fresh hrun).2.2.2.2.2 1 ?_
  rw [hend.2.2]
  exact List.mem_singleton_self 1

end Channel
end AppCore
