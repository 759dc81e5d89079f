/-
  AppCore.Channel.Ownership

  Who owns the references of a buffer: its count is the number of references the
  callers hold, those in the queues of the channels and those of calls in progress.
-/

import AppCore.Channel.Delivery

namespace AppCore
namespace Channel

variable {C K : Type*} {n : Nat} {P : Platform}

/-- The references of a buffer, wherever they are. -/
noncomputable def System.owners (s : System C K n) (b : Fin n) : Nat :=
  s.held b + (∑ᶠ c, (s.channels c).refs.count b) + ∑ᶠ k, (s.calls k).refs.count b

/-- The reference counts are right.  Only finitely many channels and calls have
    references, so the sums of `owners` are what they say. -/
structure System.Balanced (P : Platform) (s : System C K n) : Prop where
  counted : s.pool.Counted P
  channels_finite : ∀ b, (Function.support fun c => (s.channels c).refs.count b).Finite
  calls_finite : ∀ b, (Function.support fun k => (s.calls k).refs.count b).Finite
  balance : ∀ b, s.pool.count b = s.owners b

/-- What a change of the pool does to the counts. -/
theorem PoolStep.spec {pool pool' : Pool n} {gained lost : List (Fin n)}
    (h : PoolStep P pool gained lost pool') (hcounted : pool.Counted P)
    (hlost : ∀ b ∈ lost, pool.count b ≠ 0) :
    pool'.Counted P ∧ ∀ i, pool'.count i + lost.count i = pool.count i + gained.count i := by
  have hone : ∀ b i : Fin n, [b].count i = if i = b then 1 else 0 := by
    intro b i
    by_cases hi : i = b
    · simp [hi]
    · simp [hi, Ne.symm hi]
  cases h with
  | same => exact ⟨hcounted, fun i => rfl⟩
  | @acquired outBuffer b pool' heq =>
      rcases sysBufferAcquire_spec hcounted outBuffer with
        ⟨b', hb', -, hout, hcounted', hcount⟩ | ⟨ret, hne, heq', -⟩
      · rw [heq] at hout hcounted' hcount
        obtain rfl : b = b' := Option.some.inj hout
        refine ⟨hcounted', fun i => ?_⟩
        have hi := hcount i
        dsimp only at hi
        rw [hi, hone, List.count_nil]
        by_cases hib : i = b
        · rw [if_pos hib, if_pos hib, hib, hb']
        · rw [if_neg hib, if_neg hib]
      · rw [heq'] at heq
        cases heq
  | @retained b pool' heq =>
      rcases sysBufferRetain_spec hcounted (some b) with
        ⟨b', hbuf, -, -, hcounted', hcount⟩ | ⟨ret, hne, heq'⟩
      · obtain rfl : b = b' := Option.some.inj hbuf
        rw [heq] at hcounted' hcount
        refine ⟨hcounted', fun i => ?_⟩
        rw [hone, List.count_nil]
        exact hcount i
      · rw [heq'] at heq
        exact absurd (congrArg Prod.fst heq) hne
  | @released b =>
      obtain ⟨hcounted', hcount⟩ :=
        sysBufferRelease_spec hcounted (hlost b List.mem_cons_self)
      refine ⟨hcounted', fun i => ?_⟩
      rw [hone, List.count_nil]
      exact hcount i

section Balance

variable {s s' : System C K n} {b : Fin n}

/-- A buffer in a queue or with a call has a count. -/
theorem System.Balanced.count_pos (hb : s.Balanced P)
    (h : 0 < s.held b ∨ (∃ c, b ∈ (s.channels c).refs) ∨ ∃ k, b ∈ (s.calls k).refs) :
    0 < s.pool.count b := by
  rw [hb.balance, System.owners]
  rcases h with hheld | ⟨c, hc⟩ | ⟨k, hk⟩
  · omega
  · have hle := single_le_finsum c (hb.channels_finite b) fun _ => Nat.zero_le _
    have hpos : 0 < (s.channels c).refs.count b := List.count_pos_iff.mpr hc
    omega
  · have hle := single_le_finsum k (hb.calls_finite b) fun _ => Nat.zero_le _
    have hpos : 0 < (s.calls k).refs.count b := List.count_pos_iff.mpr hk
    omega

variable [DecidableEq C] [DecidableEq K]

omit [DecidableEq C] in
/-- The references of the calls after one call has moved. -/
theorem System.Balanced.calls_update (hb : s.Balanced P) (k : K) (st : CallState C n)
    (r r' : List (Fin n)) (hr : (s.calls k).refs = r) (hr' : st.refs = r') (i : Fin n) :
    (∑ᶠ k', (Function.update s.calls k st k').refs.count i) + r.count i =
      (∑ᶠ k', (s.calls k').refs.count i) + r'.count i := by
  rw [← hr, ← hr']
  exact Family.finsum_update_add (f := fun _ st => st.refs.count i) (hb.calls_finite i) k st

omit [DecidableEq K] in
/-- The references of the channels after one channel has changed. -/
theorem System.Balanced.channels_update (hb : s.Balanced P) (c : C) (slot : ChannelSlot n)
    (r r' : List (Fin n)) (hr : (s.channels c).refs = r) (hr' : slot.refs = r') (i : Fin n) :
    (∑ᶠ c', (Function.update s.channels c slot c').refs.count i) + r.count i =
      (∑ᶠ c', (s.channels c').refs.count i) + r'.count i := by
  rw [← hr, ← hr']
  exact Family.finsum_update_add (f := fun _ slot => slot.refs.count i) (hb.channels_finite i) c
    slot

omit [DecidableEq C] in
theorem System.Balanced.calls_update_finite (hb : s.Balanced P) (k : K) (st : CallState C n)
    (i : Fin n) :
    (Function.support fun k' => (Function.update s.calls k st k').refs.count i).Finite :=
  Family.support_update_finite (f := fun _ st => st.refs.count i) (hb.calls_finite i) k st

omit [DecidableEq K] in
theorem System.Balanced.channels_update_finite (hb : s.Balanced P) (c : C)
    (slot : ChannelSlot n) (i : Fin n) :
    (Function.support fun c' => (Function.update s.channels c slot c').refs.count i).Finite :=
  Family.support_update_finite (f := fun _ slot => slot.refs.count i) (hb.channels_finite i) c
    slot

/-- Every step whose callers hold what they release keeps the balance. -/
theorem System.Balanced.effect (hb : s.Balanced P) {holds : Prop} (hholds : holds)
    (h : Effect P holds s s') : s'.Balanced P := by
  cases h with
  | @pool k st pool' held' gained lost hadv hpool hbal =>
      have hbal := hbal hholds
      -- what is released has an owner, so that its count does not wrap
      have hlost : ∀ x ∈ lost, s.pool.count x ≠ 0 := by
        intro x hx
        have hcount : 0 < lost.count x := List.count_pos_iff.mpr hx
        have hpos : 0 < s.pool.count x := by
          cases hpool with
          | same => cases hx
          | acquired => cases hx
          | retained => cases hx
          | released =>
              apply hb.count_pos
              have hi := hbal x
              rw [List.count_nil] at hi
              by_cases hheld : 0 < s.held x
              · exact Or.inl hheld
              · exact Or.inr (Or.inr ⟨k, List.count_pos_iff.mp (by omega)⟩)
        omega
      obtain ⟨hcounted, hcount⟩ := hpool.spec hb.counted hlost
      refine ⟨hcounted, hb.channels_finite, hb.calls_update_finite k st, fun i => ?_⟩
      have hcalls := hb.calls_update k st _ _ rfl rfl i
      have hold := hb.balance i
      have hi := hcount i
      have hbali := hbal i
      unfold System.owners at hold ⊢
      dsimp only
      omega
  | @channel k c st ch ch' held' obs hadv hlive hvalid hstep hbal =>
      -- the references move between the queue, the call and the callers
      refine ⟨hb.counted, hb.channels_update_finite c (.live ch'), hb.calls_update_finite k st,
        fun i => ?_⟩
      have hcalls := hb.calls_update k st _ _ rfl rfl i
      have hchannels := hb.channels_update c (.live ch') ch.items ch'.items
        (by rw [hlive]; rfl) rfl i
      have hold := hb.balance i
      have hbali := hbal i
      unfold System.owners at hold ⊢
      dsimp only
      omega
  | @created k c st ch hadv hrefs habsent hvalid hitems =>
      refine ⟨hb.counted, hb.channels_update_finite c (.live ch), hb.calls_update_finite k st,
        fun i => ?_⟩
      have hcalls := hb.calls_update k st _ _ rfl hrefs i
      have hchannels := hb.channels_update c (.live ch) [] [] (by rw [habsent]; rfl) hitems i
      have hold := hb.balance i
      unfold System.owners at hold ⊢
      dsimp only
      omega
  | @dying k c ch ch' hk hfree hlive hvalid hitems =>
      refine ⟨hb.counted, hb.channels_update_finite c (.dying ch' 0),
        hb.calls_update_finite k (.tearingDown c), fun i => ?_⟩
      have hcalls := hb.calls_update k (.tearingDown c) [] [] (by rw [hk]; rfl) rfl i
      have hchannels := hb.channels_update c (.dying ch' 0) ch.items ch.items
        (by rw [hlive]; rfl) hitems i
      have hold := hb.balance i
      unfold System.owners at hold ⊢
      dsimp only
      omega
  | @torn c ch i x hdying hdrop =>
      -- the queue gives up one reference, and the pool takes it back
      have hrefs : (s.channels c).refs = x :: ch.items.drop (i + 1) := by
        rw [hdying]
        exact hdrop
      have hpos : 0 < s.pool.count x := by
        apply hb.count_pos
        right; left
        exact ⟨c, by rw [hrefs]; exact List.mem_cons_self⟩
      have hreleased : PoolStep P s.pool [] [x] (sysBufferRelease P (some x) s.pool) :=
        PoolStep.released
      obtain ⟨hcounted, hcount⟩ := hreleased.spec hb.counted (by
        intro y hy
        obtain rfl : y = x := List.mem_singleton.mp hy
        omega)
      refine ⟨hcounted, hb.channels_update_finite c (.dying ch (i + 1)), hb.calls_finite,
        fun j => ?_⟩
      have hchannels := hb.channels_update c (.dying ch (i + 1)) _ (ch.items.drop (i + 1)) hrefs
        rfl j
      have hold := hb.balance j
      have hj := hcount j
      rw [List.count_nil] at hj
      rw [count_cons_eq x j] at hchannels
      unfold System.owners at hold ⊢
      dsimp only
      omega
  | @freed k c ch i hk hdying hdrop =>
      refine ⟨hb.counted, hb.channels_update_finite c .freed, hb.calls_update_finite k _,
        fun j => ?_⟩
      have hcalls := hb.calls_update k (.returned (.release (some c)) .ok none) [] []
        (by rw [hk]; rfl) rfl j
      have hchannels := hb.channels_update c .freed [] [] (by rw [hdying]; exact hdrop) rfl j
      have hold := hb.balance j
      unfold System.owners at hold ⊢
      dsimp only
      omega

omit [DecidableEq C] [DecidableEq K] in
theorem System.Fresh.balanced (h : s.Fresh P) : s.Balanced P := by
  obtain ⟨⟨blockCapacity, hpool⟩, hchannels, hcalls, hheld, -⟩ := h
  have hcreated := sysBufferPoolCreate_counted hpool
  have hchan : ∀ b, (fun c => (s.channels c).refs.count b) = fun _ => 0 := by
    intro b
    rw [hchannels]
    rfl
  have hcall : ∀ b, (fun k => (s.calls k).refs.count b) = fun _ => 0 := by
    intro b
    rw [hcalls]
    rfl
  refine ⟨hcreated.1, fun b => ?_, fun b => ?_, fun b => ?_⟩
  · rw [hchan, Function.support_fun_zero]
    exact Set.finite_empty
  · rw [hcall, Function.support_fun_zero]
    exact Set.finite_empty
  · rw [System.owners, hchan, hcall, finsum_zero, finsum_zero, hheld, hcreated.2 b]
    rfl

theorem owned_of_reachable (h : (ownedMachine C K n P).Reachable s) :
    s.Sound P ∧ s.Balanced P := by
  refine h.invariant (I := fun s => s.Sound P ∧ s.Balanced P)
    (fun s (hs : s.Fresh P) => ⟨hs.sound, hs.balanced⟩) fun u e v hu hstep => ?_
  have hstep' : (channelMachine C K n P).step u e v := ⟨hstep.1, hstep.2.1⟩
  obtain ⟨heff, hsound⟩ := hu.1.step hstep'
  exact ⟨hsound, hu.2.effect hstep.2.2 heff⟩

/-! ## What the counts mean -/

/-- The steps that call `sys_buffer_release` on the buffer `b`. -/
def Releases (P : Platform) (s : System C K n) (b : Fin n) : Event C K n → Prop
  | .call _ (.bufferRelease buffer) => buffer = some b
  | .proceed k =>
    (∃ c buffer timeoutMs ret rest,
      s.calls k = .sendRelease c buffer timeoutMs ret (b :: rest)) ∨
    ∃ c ch i, s.calls k = .tearingDown c ∧ s.channels c = .dying ch i ∧ i < ch.count ∧
      ch.queue (ch.index P i) = some b
  | _ => False

/-- A pool whose reference counts are the references that exist. -/
structure OwnedPool (P : Platform) (s : System C K n) : Prop where
  /-- The references of the callers, of the queues (where a channel is torn down, of the slots
      not yet released) and of the calls in progress. -/
  balance : ∀ b, (s.pool.buffers b).referenceCount =
    s.held b + (∑ᶠ c, (s.channels c).refs.count b) + ∑ᶠ k, (s.calls k).refs.count b
  channels_finite : ∀ b, (Function.support fun c => (s.channels c).refs.count b).Finite
  calls_finite : ∀ b, (Function.support fun k => (s.calls k).refs.count b).Finite
  /-- The slots of a queue are its references. -/
  queued : ∀ c ch, (s.channels c).object = some ch →
    Ring.window ch.queue ch.capacity ch.head ch.count = ch.items.map some
  in_use : s.pool.buffersInUse =
    (Finset.univ.filter fun b => (s.pool.buffers b).referenceCount ≠ 0).card
  /-- A buffer that is handed out is nowhere else. -/
  acquire_free : ∀ {k s' ret b},
    (ownedMachine C K n P).step s (.call k (.bufferAcquire true)) s' →
      s'.calls k = .returned (.bufferAcquire true) ret (some b) →
        s.held b = 0 ∧ (∀ c, b ∉ (s.channels c).refs) ∧ ∀ k, b ∉ (s.calls k).refs
  acquire_busy : ∀ {k s'}, (ownedMachine C K n P).step s (.call k (.bufferAcquire true)) s' →
    (s'.calls k = .returned (.bufferAcquire true) .busy none ↔
      ∀ b, (s.pool.buffers b).referenceCount ≠ 0)
  /-- No release meets a count of zero. -/
  release_pos : ∀ {e s' b}, (ownedMachine C K n P).step s e s' → Releases P s b e →
    0 < (s.pool.buffers b).referenceCount ∧ 0 < s.pool.buffersInUse
  idle : (∀ b, s.held b = 0) → (∀ c, (s.channels c).object = none) →
    (∀ k, (s.calls k).refs = []) → s.pool.buffersInUse = 0 ∧
      sysBufferPoolDestroy s.pool = .ok ∧ ∀ timeoutMs, waitIdleLoop timeoutMs s.pool = some .ok

theorem refs_of_object {slot : ChannelSlot n} (h : slot.object = none) : slot.refs = [] := by
  cases slot with
  | absent => rfl
  | live ch => cases h
  | dying ch i => cases h
  | freed => rfl

omit [DecidableEq C] [DecidableEq K] in
/-- A buffer without a count has no reference anywhere. -/
theorem System.Balanced.unowned (hb : s.Balanced P) (h : s.pool.count b = 0) :
    s.held b = 0 ∧ (∀ c, b ∉ (s.channels c).refs) ∧ ∀ k, b ∉ (s.calls k).refs := by
  have hpos := fun hown => Nat.ne_of_gt (hb.count_pos (b := b) hown) h
  refine ⟨?_, fun c hc => hpos (Or.inr (Or.inl ⟨c, hc⟩)),
    fun k hk => hpos (Or.inr (Or.inr ⟨k, hk⟩))⟩
  by_contra hheld
  exact hpos (Or.inl (Nat.pos_of_ne_zero hheld))

/-- The answer of an acquire. -/
theorem acquire_calls {k : K}
    (h : (ownedMachine C K n P).step s (.call k (.bufferAcquire true)) s') :
    s'.calls k = .returned (.bufferAcquire true) (sysBufferAcquire P true s.pool).1
      (sysBufferAcquire P true s.pool).2.2 := by
  have hnext : next P s (.call k (.bufferAcquire true)) = some s' := h.1
  simp only [next, enter] at hnext
  split at hnext
  · obtain rfl := Option.some.inj hnext
    exact Function.update_self ..
  · cases hnext

theorem System.Balanced.releases_pos {e : Event C K n} (hs : s.Sound P) (hb : s.Balanced P)
    (h : (ownedMachine C K n P).step s e s') (hrel : Releases P s b e) :
    0 < s.pool.count b := by
  apply hb.count_pos
  cases e with
  | call k call =>
      cases call with
      | bufferRelease buffer =>
          obtain rfl : buffer = some b := hrel
          exact Or.inl h.2.2
      | _ => exact hrel.elim
  | proceed k =>
      rcases hrel with ⟨c, buffer, timeoutMs, ret, rest, hk⟩ | ⟨c, ch, i, hk, hdying, hi, hx⟩
      · refine Or.inr (Or.inr ⟨k, ?_⟩)
        rw [hk]
        exact List.mem_cons_self
      · obtain ⟨x, hx', hdrop⟩ := teardown_effect hs hdying hi
        obtain rfl : x = b := Option.some.inj (hx'.symm.trans hx)
        refine Or.inr (Or.inl ⟨c, ?_⟩)
        rw [hdying, ChannelSlot.refs, hdrop]
        exact List.mem_cons_self
  | exchange k spurious => exact hrel.elim
  | wake k ret => exact hrel.elim

/-- In every reachable state the reference counts are the references that exist. -/
theorem buffer_ownership (h : (ownedMachine C K n P).Reachable s) : OwnedPool P s := by
  obtain ⟨hs, hb⟩ := owned_of_reachable h
  refine ⟨hb.balance, hb.channels_finite, hb.calls_finite,
    fun c ch hobj => (hs.valid c ch hobj).filled, ?_, ?_, ?_, ?_, ?_⟩
  · rw [hb.counted.in_use, Finset.card_filter]
    refine Finset.sum_congr rfl fun b _ => ?_
    show inUse (s.pool.count b) = if s.pool.count b ≠ 0 then 1 else 0
    by_cases hz : s.pool.count b = 0
    · rw [inUse, if_pos hz, if_neg (not_not.mpr hz)]
    · rw [inUse, if_neg hz, if_pos hz]
  · intro k s' ret b hstep hcalls
    rw [acquire_calls hstep] at hcalls
    apply hb.unowned
    rcases sysBufferAcquire_spec hb.counted true with ⟨b', hz, -, hout, -⟩ | ⟨e, -, heq, -⟩
    · rw [hout] at hcalls
      simp only [CallState.returned.injEq, Option.some.injEq, true_and] at hcalls
      obtain rfl : b' = b := hcalls.2
      exact hz
    · rw [heq] at hcalls
      simp at hcalls
  · intro k s' hstep
    rw [acquire_calls hstep]
    rcases sysBufferAcquire_spec hb.counted true with ⟨b, hz, -, hout, -⟩ | ⟨e, -, heq, hbusy⟩
    · rw [hout]
      exact ⟨fun hcalls => by simp at hcalls, fun hall => absurd hz (hall b)⟩
    · obtain ⟨rfl, hall⟩ := hbusy rfl
      rw [heq]
      exact ⟨fun _ => hall, fun _ => rfl⟩
  · intro e s' b hstep hrel
    have hpos := hb.releases_pos hs hstep hrel
    exact ⟨hpos, hb.counted.in_use_pos (Nat.ne_of_gt hpos)⟩
  · intro hheld hchannels hcalls
    have hzero : s.pool.buffersInUse = 0 := by
      rw [hb.counted.idle_iff]
      intro b
      have hchan : ∀ c, (s.channels c).refs.count b = 0 := fun c => by
        rw [refs_of_object (hchannels c)]
        rfl
      have hcall : ∀ k, (s.calls k).refs.count b = 0 := fun k => by
        rw [hcalls k]
        rfl
      rw [hb.balance, System.owners, hheld, finsum_congr hchan, finsum_congr hcall, finsum_zero,
        finsum_zero]
      rfl
    refine ⟨hzero, ?_, fun timeoutMs => ?_⟩
    · rw [sysBufferPoolDestroy, if_neg (not_not.mpr hzero)]
    · rw [waitIdleLoop, if_neg (not_not.mpr hzero)]

/-- A buffer that its owner holds and a channel has queued. -/
theorem buffer_ownership_sent :
    ∃ s : System Unit (Fin 5) 1, (s.pool.buffers 0).referenceCount = 2 ∧
      OwnedPool Platform.lp64 s := by
  have hallowed : Machine.Along (next Platform.lp64) (fun s e => LastRelease s e ∧ Holds s e)
      System.sample [.call 0 (.create () (some ⟨1, 0⟩) true .ok), .call 1 (.bufferAcquire true),
        .call 2 (.send (some ()) (some 0) 0), .proceed 2] :=
    ⟨⟨trivial, trivial⟩, fun _ _ => ⟨⟨trivial, trivial⟩, fun _ _ => ⟨⟨trivial, trivial⟩,
      fun _ _ => ⟨⟨trivial, trivial⟩, fun _ _ => trivial⟩⟩⟩⟩
  have hcount : ∃ s, Machine.exec (next Platform.lp64) System.sample
      [.call 0 (.create () (some ⟨1, 0⟩) true .ok), .call 1 (.bufferAcquire true),
        .call 2 (.send (some ()) (some 0) 0), .proceed 2] = some s ∧
      (s.pool.buffers 0).referenceCount = 2 := ⟨_, rfl, rfl⟩
  obtain ⟨s, hexec, hcount⟩ := hcount
  have hreach : (ownedMachine Unit (Fin 5) 1 Platform.lp64).Reachable s :=
    ⟨_, _, System.sample_fresh, Machine.Run.of_exec_along hexec hallowed⟩
  exact ⟨s, hcount, buffer_ownership hreach⟩

end Balance

end Channel
end AppCore
