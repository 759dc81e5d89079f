/-
  AppCore.Camera.Consumers

  What the consumers do to a stream that is up, and the release of its channel when no
  consumer has a reference any more.
-/

import AppCore.Camera.Stream
import AppCore.Channel.RefCount

namespace AppCore
namespace Camera

open Channel

variable {C : Type*} {n : Nat} {P : Platform} {s s' : Stream C n} {pool pool' : Pool n}
  {ch : SysChannel n} {c : C}

/-- An action of the consumer `c` that gives back only what the consumer has. -/
def ConsumerAction.Owned (s : Stream C n) (c : C) : ConsumerAction → Prop
  | .release => 0 < s.refs c
  | .bufferRetain buffer => ∃ h : buffer < n, 0 < s.held c ⟨buffer, h⟩
  | .bufferRelease buffer => ∃ h : buffer < n, 0 < s.held c ⟨buffer, h⟩
  | _ => True

/-- What an action of the consumer `c` leaves. -/
structure ConsumerStep (P : Platform) (c : C) (s s' : Stream C n) : Prop where
  live : s'.Live P
  thread : s'.thread = s.thread
  refs : ∀ c', c' ≠ c → s'.refs c' = s.refs c'
  held : ∀ c', c' ≠ c → s'.held c' = s.held c'

theorem ConsumerStep.same (h : s.Live P) : ConsumerStep P c s s :=
  ⟨h, rfl, fun _ _ => rfl, fun _ _ => rfl⟩

/-! ## The reference count of the channel -/

/-- The count after a decrement. -/
theorem Stream.Linked.fetchSub (h : s.Linked P pool ch) :
    (channelFetchSub P ch).2 = { ch with referenceCount := ch.referenceCount - 1 } := by
  have hpos : 0 < ch.referenceCount := by
    rw [h.references]
    omega
  have hle := h.references_le
  have hsub : ch.referenceCount + P.uintMax =
      (ch.referenceCount - 1) + (P.uintMax + 1) := by omega
  have hmod : (ch.referenceCount + P.uintMax) % (P.uintMax + 1) = ch.referenceCount - 1 := by
    rw [hsub, Nat.add_mod_right, Nat.mod_eq_of_lt (by omega)]
  rw [channelFetchSub, hmod]

section Actions

variable [DecidableEq C]

theorem retain_step (h : s.Linked P pool ch) (hs : consume P c s .retain = some s') :
    ConsumerStep P c s s' := by
  simp only [consume, h.channel_eq, Option.map_some] at hs
  obtain rfl := Option.some.inj hs
  unfold channelRetainLoop
  by_cases hzero : ch.referenceCount = 0
  · rw [if_pos hzero]
    exact ConsumerStep.same ⟨_, _, h⟩
  rw [if_neg hzero]
  by_cases hmax : ch.referenceCount = P.uintMax
  · rw [if_pos hmax]
    exact ConsumerStep.same ⟨_, _, h⟩
  rw [if_neg hmax]
  have hexchange : (channelExchange ch.referenceCount false ch).2.2 =
      { ch with referenceCount := ch.referenceCount + 1 } := by
    rw [channelExchange, if_pos ⟨rfl, rfl⟩]
  have hle := h.references_le
  refine ⟨⟨pool, { ch with referenceCount := ch.referenceCount + 1 }, ?_⟩, rfl,
    fun c' hc => Function.update_of_ne hc .., fun _ _ => rfl⟩
  exact {
    pool_eq := h.pool_eq
    channel_eq := congrArg some hexchange
    attached := h.attached
    counted := h.counted
    valid := h.valid.withReferences _
    refs_finite := owned_add_finite h.refs_finite c _
    references := by
      have hsum := sum_owned_add h.refs_finite c
      have hreferences := h.references
      show ch.referenceCount + 1 = 1 + ∑ᶠ i, Function.update s.refs c (s.refs c + 1) i
      omega
    references_le := by
      show ch.referenceCount + 1 ≤ P.uintMax
      omega
    held_finite := h.held_finite
    balance := h.balance }

theorem release_step (h : s.Linked P pool ch) (hc : 0 < s.refs c)
    (hs : consume P c s .release = some s') : ConsumerStep P c s s' := by
  have hsum := sum_owned_sub h.refs_finite hc
  have hreferences := h.references
  have hle := h.references_le
  -- the camera has a reference too, so this is not the last one
  have hnot : ch.referenceCount ≠ 1 := by omega
  have hfirst : (channelFetchSub P ch).1 = ch.referenceCount := rfl
  simp only [consume, h.channel_eq, Option.map_some, sysChannelRelease, hfirst, h.fetchSub] at hs
  rw [if_pos hnot] at hs
  obtain rfl := Option.some.inj hs
  refine ⟨⟨pool, { ch with referenceCount := ch.referenceCount - 1 }, ?_⟩, rfl,
    fun c' hc' => Function.update_of_ne hc' .., fun _ _ => rfl⟩
  exact {
    pool_eq := h.pool_eq
    channel_eq := rfl
    attached := h.attached
    counted := h.counted
    valid := h.valid.withReferences _
    refs_finite := owned_add_finite h.refs_finite c _
    references := by
      show ch.referenceCount - 1 = 1 + ∑ᶠ i, Function.update s.refs c (s.refs c - 1) i
      omega
    references_le := by
      show ch.referenceCount - 1 ≤ P.uintMax
      omega
    held_finite := h.held_finite
    balance := h.balance }

/-! ## The references of the buffers -/

theorem setHeld_finite (h : s.Linked P pool ch) (b : Fin n) (count : Nat) (i : Fin n) :
    (Function.support fun c' => (s.setHeld c b count).held c' i).Finite :=
  Family.support_update_finite (f := fun _ (x : Fin n → Nat) => x i) (h.held_finite i) c _

/-- The references of the consumers after one count has changed. -/
theorem sum_setHeld (h : s.Linked P pool ch) (b : Fin n) (count : Nat) (i : Fin n) :
    (∑ᶠ c', (s.setHeld c b count).held c' i) + s.held c i =
      (∑ᶠ c', s.held c' i) + if i = b then count else s.held c i := by
  have hsum := Family.finsum_update_add (f := fun _ (x : Fin n → Nat) => x i) (h.held_finite i) c
    (Function.update (s.held c) b count)
  rw [Function.update_apply] at hsum
  exact hsum

theorem setHeld_of_ne (b : Fin n) (count : Nat) {c' : C} (hc : c' ≠ c) :
    (s.setHeld c b count).held c' = s.held c' := Function.update_of_ne hc ..

theorem sum_gained (h : s.Linked P pool ch) (b i : Fin n) :
    (∑ᶠ c', (s.setHeld c b (s.held c b + 1)).held c' i) =
      (∑ᶠ c', s.held c' i) + [b].count i := by
  have hsum := sum_setHeld (c := c) h b (s.held c b + 1) i
  by_cases hi : i = b
  · subst hi
    rw [if_pos rfl] at hsum
    rw [List.count_singleton_self]
    omega
  · rw [if_neg hi] at hsum
    rw [List.count_singleton, beq_false_of_ne (Ne.symm hi)]
    simpa using hsum

theorem sum_lost (h : s.Linked P pool ch) {b : Fin n} (hb : 0 < s.held c b) (i : Fin n) :
    (∑ᶠ c', (s.setHeld c b (s.held c b - 1)).held c' i) + [b].count i =
      ∑ᶠ c', s.held c' i := by
  have hsum := sum_setHeld (c := c) h b (s.held c b - 1) i
  by_cases hi : i = b
  · subst hi
    rw [if_pos rfl] at hsum
    rw [List.count_singleton_self]
    omega
  · rw [if_neg hi] at hsum
    rw [List.count_singleton, beq_false_of_ne (Ne.symm hi)]
    simpa using hsum

theorem receive_step (h : s.Linked P pool ch) {timeoutMs ret : Int}
    (hs : consume P c s (.receive timeoutMs ret) = some s') : ConsumerStep P c s s' := by
  simp only [consume, h.channel_eq, Option.map_some] at hs
  obtain ⟨hvalid, hspec, -⟩ := receiveWake_spec h.valid timeoutMs ret
  have hreferences : (receiveWake P timeoutMs ret ch).1.referenceCount = ch.referenceCount :=
    receiveWake_references timeoutMs ret
  generalize receiveWake P timeoutMs ret ch = result at hs hvalid hspec hreferences
  obtain ⟨ch', outcome, obs⟩ := result
  dsimp only at hs hvalid hspec hreferences
  have hitems : ch'.fifo.items = ch'.items := rfl
  generalize hfifo : ch'.fifo = q at hspec hitems
  -- a receive that hands out nothing leaves the queue
  have hkeep : ch'.items = ch.items → ConsumerStep P c s { s with channel := some ch' } := by
    intro heq
    refine ⟨⟨pool, ch', h.moveQueue rfl rfl rfl rfl hvalid hreferences h.held_finite fun i => ?_⟩,
      rfl, fun _ _ => rfl, fun _ _ => rfl⟩
    rw [heq]
    rfl
  cases hspec with
  | waits =>
      obtain rfl := Option.some.inj hs
      exact hkeep hitems.symm
  | failed =>
      obtain rfl := Option.some.inj hs
      exact hkeep hitems.symm
  | closed =>
      obtain rfl := Option.some.inj hs
      exact hkeep hitems.symm
  | @popped x rest hpop =>
      obtain rfl := Option.some.inj hs
      have hpop : ch.items = x :: rest := hpop
      refine ⟨⟨pool, ch', h.moveQueue rfl rfl rfl rfl hvalid hreferences ?_ fun i => ?_⟩, rfl,
        fun _ _ => rfl, fun c' hc => setHeld_of_ne x _ hc⟩
      · exact fun b => setHeld_finite h x _ b
      · have hgained : (∑ᶠ c', (Stream.setHeld { s with channel := some ch' } c x
            (s.held c x + 1)).held c' i) = (∑ᶠ c', s.held c' i) + [x].count i := sum_gained h x i
        have hrest : ch'.items = rest := hitems.symm
        rw [hgained, hrest, hpop, count_cons_eq x i rest]
        show s.producerRefs.count i + _ + _ = _
        omega

theorem bufferRetain_step (h : s.Linked P pool ch) {buffer : Nat}
    (hs : consume P c s (.bufferRetain buffer) = some s') : ConsumerStep P c s s' := by
  simp only [consume] at hs
  split at hs
  · rename_i hb
    rw [h.pool_eq, Option.map_some] at hs
    have hresult := sysBufferRetain_result P (some ⟨buffer, hb⟩) pool
    generalize hretain : sysBufferRetain P (some ⟨buffer, hb⟩) pool = result at hs hresult
    obtain ⟨ret, pool'⟩ := result
    rcases hresult with ⟨b', -, hret⟩ | ⟨hret, hsame⟩
    · obtain rfl : ret = .ok := hret
      obtain rfl := Option.some.inj hs
      refine ⟨⟨pool', ch, h.movePool (PoolStep.retained hretain) (fun x hx => by cases hx) rfl rfl
        rfl rfl (fun b => setHeld_finite h ⟨buffer, hb⟩ _ b) fun i => ?_⟩, rfl, fun _ _ => rfl,
        fun c' hc => setHeld_of_ne ⟨buffer, hb⟩ _ hc⟩
      have hgained : (∑ᶠ c', (Stream.setHeld { s with pool := some pool' } c ⟨buffer, hb⟩
          (s.held c ⟨buffer, hb⟩ + 1)).held c' i) = (∑ᶠ c', s.held c' i) + [⟨buffer, hb⟩].count i :=
        sum_gained h ⟨buffer, hb⟩ i
      show s.producerRefs.count i + (∑ᶠ c', (Stream.setHeld { s with pool := some pool' } c
        ⟨buffer, hb⟩ (s.held c ⟨buffer, hb⟩ + 1)).held c' i) + _ = _
      rw [hgained, List.count_nil]
      omega
    · obtain rfl : pool' = pool := hsame
      have hret : ret ≠ .ok := hret
      obtain rfl := Option.some.inj hs
      rw [if_neg hret]
      exact ⟨⟨pool', ch, h.movePool PoolStep.same (fun x hx => by cases hx) rfl rfl rfl rfl
        h.held_finite fun i => rfl⟩, rfl, fun _ _ => rfl, fun _ _ => rfl⟩
  · cases hs

theorem bufferRelease_step (h : s.Linked P pool ch) {buffer : Nat}
    (hc : ∃ hb : buffer < n, 0 < s.held c ⟨buffer, hb⟩)
    (hs : consume P c s (.bufferRelease buffer) = some s') : ConsumerStep P c s s' := by
  obtain ⟨hb, hheld⟩ := hc
  simp only [consume, dif_pos hb, h.pool_eq, Option.map_some] at hs
  obtain rfl := Option.some.inj hs
  refine ⟨⟨_, ch, h.movePool (PoolStep.released (b := ⟨buffer, hb⟩)) (fun x hx => ?_) rfl rfl
    rfl rfl (fun b => setHeld_finite h ⟨buffer, hb⟩ _ b) fun i => ?_⟩, rfl, fun _ _ => rfl,
    fun c' hc => setHeld_of_ne ⟨buffer, hb⟩ _ hc⟩
  · obtain rfl := List.mem_singleton.mp hx
    exact h.held_pos hheld
  · have hlost := sum_lost h hheld i
    show s.producerRefs.count i + (∑ᶠ c', (s.setHeld c ⟨buffer, hb⟩
      (s.held c ⟨buffer, hb⟩ - 1)).held c' i) + _ = _
    rw [List.count_nil]
    omega

/-- Every action of a consumer keeps the stream up, and the other consumers' references. -/
theorem consume_step (h : s.Live P) {action : ConsumerAction} (hc : action.Owned s c)
    (hs : consume P c s action = some s') : ConsumerStep P c s s' := by
  obtain ⟨pool, ch, h⟩ := h
  cases action with
  | retain => exact retain_step h hs
  | release => exact release_step h hc hs
  | receive timeoutMs ret => exact receive_step h hs
  | bufferRetain buffer => exact bufferRetain_step h hs
  | bufferRelease buffer => exact bufferRelease_step h hc hs

end Actions

/-! ## The release of the channel -/

/-- Releasing a list of buffers, each at most as often as it has references. -/
theorem releaseAll_spec (l : List (Fin n)) (hcounted : pool.Counted P)
    (hle : ∀ b, l.count b ≤ pool.count b) :
    (l.foldl (fun pool x => sysBufferRelease P (some x) pool) pool).Counted P ∧
      ∀ b, (l.foldl (fun pool x => sysBufferRelease P (some x) pool) pool).count b + l.count b =
        pool.count b := by
  induction l generalizing pool with
  | nil => exact ⟨hcounted, fun b => rfl⟩
  | cons x rest ih =>
      have hx : pool.count x ≠ 0 := by
        have hxle := hle x
        rw [List.count_cons_self] at hxle
        omega
      obtain ⟨hcounted', hcount⟩ := sysBufferRelease_spec hcounted hx
      have hone : ∀ b, (x :: rest).count b = rest.count b + if b = x then 1 else 0 := by
        intro b
        by_cases hb : b = x
        · subst hb
          rw [List.count_cons_self, if_pos rfl]
        · rw [List.count_cons_of_ne (Ne.symm hb), if_neg hb, Nat.add_zero]
      obtain ⟨hdone, hsum⟩ := ih hcounted' fun b => by
        have hb := hle b
        have hcb := hcount b
        rw [hone] at hb
        omega
      refine ⟨hdone, fun b => ?_⟩
      have hb := hsum b
      have hcb := hcount b
      rw [hone, List.foldl_cons]
      omega

/-- The last release gives back what is in the queue. -/
theorem releaseQueue_eq (h : ch.Valid P) (pool : Pool n) :
    releaseQueue P ch pool =
      ch.items.foldl (fun pool x => sysBufferRelease P (some x) pool) pool := by
  have hcells : (List.range ch.count).map (fun i => ch.queue (ch.index P i)) =
      ch.items.map some := by
    rw [← h.filled, Ring.window]
    apply List.map_congr_left
    intro i hi
    have hlt := List.mem_range.mp hi
    have hle := h.count_le
    rw [h.index_eq (by omega)]
  have hfold : releaseQueue P ch pool = ((List.range ch.count).map fun i =>
      ch.queue (ch.index P i)).foldl (fun pool x => sysBufferRelease P x pool) pool := by
    rw [List.foldl_map]
    rfl
  rw [hfold, hcells, List.foldl_map]

/-- When the producer and the consumers have no references left, the camera's is the last one
    of the channel, and giving it up brings every buffer back. -/
theorem Stream.Linked.drain (h : s.Linked P pool ch) (hthread : s.thread = none)
    (hfree : ∀ c, s.Free c) :
    ∃ pool', sysChannelRelease P ch (some pool) = (none, some pool') ∧ pool'.Counted P ∧
      ∀ b, pool'.count b = 0 := by
  have hrefs : s.refs = fun _ => 0 := funext fun c => (hfree c).1
  have hone : ch.referenceCount = 1 := by
    rw [h.references, hrefs, finsum_zero, Nat.add_zero]
  have hbalance : ∀ b, pool.count b = ch.items.count b := by
    intro b
    have hheld : (fun c => s.held c b) = fun _ => 0 := funext fun c => (hfree c).2 b
    have hproducer : s.producerRefs = [] := by
      rw [Stream.producerRefs, hthread]
    rw [h.balance, hproducer, hheld, finsum_zero, List.count_nil]
    omega
  have hfirst : (channelFetchSub P ch).1 = 1 := hone
  have hrelease : sysChannelRelease P ch (some pool) =
      (none, some (releaseQueue P (channelFetchSub P ch).2 pool)) := by
    rw [sysChannelRelease]
    simp only [hfirst]
    rw [if_neg (not_not_intro rfl)]
    rfl
  rw [h.fetchSub] at hrelease
  rw [releaseQueue_eq (h.valid.withReferences _)] at hrelease
  obtain ⟨hcounted, hcounts⟩ := releaseAll_spec ch.items h.counted fun b => (hbalance b).ge
  refine ⟨_, hrelease, hcounted, fun b => ?_⟩
  have hb := hcounts b
  have hq := hbalance b
  show Pool.count (ch.items.foldl _ pool) b = 0
  omega

end Camera
end AppCore
