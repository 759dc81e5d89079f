/-
  AppCore.Camera.Stream

  The references of a stream: those of a buffer are in the queue, with the producer and
  with the consumers, and those of the channel are the camera's own and the consumers'.
-/

import AppCore.Camera.System
import AppCore.Channel.Ownership

namespace AppCore
namespace Camera

open Channel

variable {C : Type*} {n : Nat} {P : Platform}

/-- The references of buffers that the producer has. -/
def ProducerLoop.refs : ProducerLoop n → List (Fin n)
  | .send buffer => [buffer]
  | .locked buffer => [buffer, buffer]
  | .unwind buffer _ releases => buffer :: releases
  | .release buffer _ => [buffer]
  | _ => []

/-- The references of buffers that the producer has, if there is one. -/
def Stream.producerRefs (s : Stream C n) : List (Fin n) :=
  match s.thread with
  | some p => p.loop.refs
  | none => []

/-- The stream is up, with this pool and this channel, and every count is right. -/
structure Stream.Linked (P : Platform) (s : Stream C n) (pool : Pool n) (ch : SysChannel n) :
    Prop where
  pool_eq : s.pool = some pool
  channel_eq : s.channel = some ch
  attached : s.attached = true
  counted : pool.Counted P
  valid : ch.Valid P
  refs_finite : (Function.support s.refs).Finite
  references : ch.referenceCount = 1 + ∑ᶠ c, s.refs c
  references_le : ch.referenceCount ≤ P.uintMax
  held_finite : ∀ b, (Function.support fun c => s.held c b).Finite
  balance : ∀ b, pool.count b =
    ch.items.count b + s.producerRefs.count b + ∑ᶠ c, s.held c b

/-- The stream is up. -/
def Stream.Live (P : Platform) (s : Stream C n) : Prop := ∃ pool ch, s.Linked P pool ch

/-- The channel is freed, and every buffer is back in the pool. -/
structure Stream.Drained (P : Platform) (s : Stream C n) : Prop where
  thread : s.thread = none
  pool : ∃ pool, s.pool = some pool ∧ pool.Counted P ∧ ∀ b, pool.count b = 0
  channel : s.channel = none
  attached : s.attached = false
  refs : s.refs = fun _ => 0
  held : s.held = fun _ _ => 0

theorem Stream.Gone.free {s : Stream C n} (h : s.Gone) (c : C) : s.Free c :=
  ⟨congrFun h.refs c, fun b => congrFun (congrFun h.held c) b⟩

theorem Stream.Drained.free {s : Stream C n} (h : s.Drained P) (c : C) : s.Free c :=
  ⟨congrFun h.refs c, fun b => congrFun (congrFun h.held c) b⟩

section Linked

variable {s s' : Stream C n} {pool pool' : Pool n} {ch ch' : SysChannel n}

/-- The producer and the consumers have a reference at most as often as the buffer has. -/
theorem Stream.Linked.producer_pos (h : s.Linked P pool ch) {b : Fin n}
    (hb : b ∈ s.producerRefs) : pool.count b ≠ 0 := by
  have hbalance := h.balance b
  have hpos : 0 < s.producerRefs.count b := List.count_pos_iff.mpr hb
  omega

theorem Stream.Linked.held_pos (h : s.Linked P pool ch) {c : C} {b : Fin n}
    (hb : 0 < s.held c b) : pool.count b ≠ 0 := by
  have hbalance := h.balance b
  have hle := single_le_finsum c (h.held_finite b) fun _ => Nat.zero_le _
  omega

/-- A step that changes the pool, and moves references accordingly. -/
theorem Stream.Linked.movePool (h : s.Linked P pool ch) {gained lost : List (Fin n)}
    (hstep : PoolStep P pool gained lost pool') (hlost : ∀ b ∈ lost, pool.count b ≠ 0)
    (hpool : s'.pool = some pool') (hchannel : s'.channel = s.channel)
    (hattached : s'.attached = s.attached) (hrefs : s'.refs = s.refs)
    (hfinite : ∀ b, (Function.support fun c => s'.held c b).Finite)
    (hmove : ∀ i, s'.producerRefs.count i + (∑ᶠ c, s'.held c i) + lost.count i =
      s.producerRefs.count i + (∑ᶠ c, s.held c i) + gained.count i) :
    s'.Linked P pool' ch := by
  obtain ⟨hcounted, hcounts⟩ := hstep.spec h.counted hlost
  refine ⟨hpool, hchannel.trans h.channel_eq, hattached.trans h.attached, hcounted, h.valid,
    ?_, ?_, h.references_le, hfinite, fun b => ?_⟩
  · rw [hrefs]
    exact h.refs_finite
  · rw [hrefs]
    exact h.references
  · have hbalance := h.balance b
    have hcount := hcounts b
    have hb := hmove b
    omega

/-- A step that changes the queue, and moves references accordingly. -/
theorem Stream.Linked.moveQueue (h : s.Linked P pool ch) (hpool : s'.pool = s.pool)
    (hchannel : s'.channel = some ch') (hattached : s'.attached = s.attached)
    (hrefs : s'.refs = s.refs) (hvalid : ch'.Valid P)
    (hcount : ch'.referenceCount = ch.referenceCount)
    (hfinite : ∀ b, (Function.support fun c => s'.held c b).Finite)
    (hmove : ∀ i, s'.producerRefs.count i + (∑ᶠ c, s'.held c i) + ch'.items.count i =
      s.producerRefs.count i + (∑ᶠ c, s.held c i) + ch.items.count i) :
    s'.Linked P pool ch' := by
  refine ⟨hpool.trans h.pool_eq, hchannel, hattached.trans h.attached, h.counted, hvalid,
    ?_, ?_, ?_, hfinite, fun b => ?_⟩
  · rw [hrefs]
    exact h.refs_finite
  · rw [hrefs, hcount]
    exact h.references
  · rw [hcount]
    exact h.references_le
  · have hbalance := h.balance b
    have hb := hmove b
    omega

/-- The producer has gone on and has the same references. -/
theorem Stream.Linked.withThread (h : s.Linked P pool ch) {thread : Option (Producer n)}
    (hrefs : Stream.producerRefs { s with thread := thread } = s.producerRefs) :
    Stream.Linked P { s with thread := thread } pool ch := by
  refine ⟨h.pool_eq, h.channel_eq, h.attached, h.counted, h.valid, h.refs_finite, h.references,
    h.references_le, h.held_finite, fun b => ?_⟩
  rw [hrefs]
  exact h.balance b

/-- The references of the producer after it has gone on. -/
theorem Stream.goto_refs {p : Producer n} (hp : s.thread = some p) (loop : ProducerLoop n) :
    (s.goto loop).producerRefs = loop.refs := by
  rw [Stream.producerRefs, Stream.goto, hp]
  rfl

theorem Stream.refs_of_loop {p : Producer n} (hp : s.thread = some p) {loop : ProducerLoop n}
    (hloop : p.loop = loop) : s.producerRefs = loop.refs := by
  rw [Stream.producerRefs, hp]
  show p.loop.refs = _
  rw [hloop]

/-! ## The sections leave the reference count of a channel -/

theorem sendLoop_references (buffer : Fin n) (dropped : Option (Fin n)) (timeoutMs : Int) :
    (sendLoop P buffer dropped timeoutMs ch).1.referenceCount = ch.referenceCount := by
  unfold sendLoop
  split
  · cases waitForChannelState timeoutMs .queueFull with
    | none => rfl
    | some ret =>
        unfold sendWaitFailed
        dsimp only
        split <;> rfl
  · split <;> rfl

theorem sendEnter_references (buffer : Fin n) (timeoutMs : Int) :
    (sendEnter P buffer timeoutMs ch).1.referenceCount = ch.referenceCount := by
  unfold sendEnter
  dsimp only
  by_cases hfull : ch.count = ch.capacity
  · simp only [if_pos hfull]
    split
    · exact sendLoop_references ..
    · exact sendLoop_references ..
  · simp only [hfull, false_and, if_false]
    exact sendLoop_references ..

theorem receiveLoop_references (timeoutMs : Int) :
    (receiveLoop P timeoutMs ch).1.referenceCount = ch.referenceCount := by
  unfold receiveLoop
  split
  · cases waitForChannelState timeoutMs .timeout with
    | none => rfl
    | some ret => rfl
  · split <;> rfl

theorem receiveWake_references (timeoutMs ret : Int) :
    (receiveWake P timeoutMs ret ch).1.referenceCount = ch.referenceCount := by
  unfold receiveWake
  split
  · rfl
  · exact receiveLoop_references timeoutMs

/-! ## The producer -/

section Producer

variable {p : Producer n}

/-- The producer goes on with the references it has. -/
theorem Stream.Linked.goto (h : s.Linked P pool ch) (hp : s.thread = some p)
    {loop : ProducerLoop n} (hrefs : loop.refs = p.loop.refs) :
    (s.goto loop).Linked P pool ch := by
  apply h.withThread
  rw [Stream.refs_of_loop hp rfl, ← hrefs]
  exact Stream.goto_refs hp loop

/-- The producer goes on after a change of the pool. -/
theorem Stream.Linked.gotoPool (h : s.Linked P pool ch) (hp : s.thread = some p)
    {gained lost : List (Fin n)} (hstep : PoolStep P pool gained lost pool')
    (hlost : ∀ b ∈ lost, pool.count b ≠ 0) (loop : ProducerLoop n)
    (hmove : ∀ i, loop.refs.count i + lost.count i = p.loop.refs.count i + gained.count i) :
    (Stream.goto { s with pool := some pool' } loop).Linked P pool' ch := by
  refine h.movePool hstep hlost rfl rfl rfl rfl h.held_finite fun i => ?_
  have hnew : (Stream.goto { s with pool := some pool' } loop).producerRefs = loop.refs :=
    Stream.goto_refs hp loop
  rw [hnew, Stream.refs_of_loop hp rfl]
  have hi := hmove i
  show loop.refs.count i + (∑ᶠ c, s.held c i) + _ = _
  omega

/-- The producer goes on after a release. -/
theorem Stream.Linked.gotoRelease (h : s.Linked P pool ch) (hp : s.thread = some p) (b : Fin n)
    (rest : List (Fin n)) {loop : ProducerLoop n} (hold : p.loop.refs.Perm (b :: rest))
    (hnew : loop.refs = rest) :
    (Stream.goto { s with pool := s.pool.map (sysBufferRelease P (some b)) } loop).Linked P
      (sysBufferRelease P (some b) pool) ch := by
  rw [h.pool_eq]
  refine h.gotoPool hp PoolStep.released (fun x hx => ?_) loop fun i => ?_
  · obtain rfl := List.mem_singleton.mp hx
    apply h.producer_pos
    rw [Stream.refs_of_loop hp rfl]
    exact hold.mem_iff.mpr List.mem_cons_self
  · have hcount := hold.count_eq i
    rw [count_cons_eq] at hcount
    rw [hnew, List.count_nil]
    omega

/-- Writing the fields of a buffer leaves the counts. -/
theorem Stream.Linked.describe (h : s.Linked P pool ch) (b : Fin n) (size : Nat)
    (timestamp : UInt64) (f : Frames) :
    Stream.Linked P { s with pool := some (Camera.describe pool b size timestamp f) }
      (Camera.describe pool b size timestamp f) ch := by
  have hcount : ∀ i, (Camera.describe pool b size timestamp f).count i = pool.count i := by
    intro i
    rw [Camera.describe, Pool.count_update]
    split
    · rename_i hi
      rw [hi]
      rfl
    · rfl
  refine ⟨rfl, h.channel_eq, h.attached, ⟨h.counted.blocks_le, ?_⟩, h.valid, h.refs_finite,
    h.references, h.references_le, h.held_finite, fun i => ?_⟩
  · simp only [hcount]
    exact h.counted.in_use
  · rw [hcount]
    exact h.balance i

/-- What a section of the producer leaves. -/
structure ProducerStep (P : Platform) (s s' : Stream C n) : Prop where
  live : s'.Live P
  thread : s'.thread.isSome = true
  refs : s'.refs = s.refs
  held : s'.held = s.held

theorem Stream.goto_isSome (hp : s.thread = some p) (loop : ProducerLoop n) :
    (s.goto loop).thread.isSome = true := by
  rw [Stream.goto, hp]
  rfl

theorem fill_step (h : s.Linked P pool ch) (hp : s.thread = some p) (hloop : p.loop = .acquire)
    {b : Fin n} {outBuffer : Bool}
    (hacquire : sysBufferAcquire P outBuffer pool = (.ok, pool', some b)) (f : Frames)
    (timestamp : UInt64) : ProducerStep P s (s.fill f pool' b timestamp).1 := by
  have hlinked : ∀ loop : ProducerLoop n, loop.refs = [b] →
      (Stream.goto { s with pool := some pool' } loop).Linked P pool' ch := by
    intro loop hrefs
    apply h.gotoPool hp (PoolStep.acquired hacquire)
    · intro x hx
      cases hx
    · intro i
      rw [hrefs, hloop]
      exact Nat.add_comm ..
  unfold Stream.fill
  dsimp only
  split
  · exact ⟨⟨_, _, hlinked _ rfl⟩, Stream.goto_isSome hp _, rfl, rfl⟩
  · split
    · exact ⟨⟨_, _, hlinked _ rfl⟩, Stream.goto_isSome hp _, rfl, rfl⟩
    · have hsend := (hlinked (.send b) rfl).describe b (frameTextLength f.sequence + 1) timestamp f
      exact ⟨⟨_, _, hsend⟩, Stream.goto_isSome hp _, rfl, rfl⟩

theorem acquire_step (h : s.Linked P pool ch) (hp : s.thread = some p) (hloop : p.loop = .acquire)
    {timestamp : UInt64} {f : Frames} {r : Stream C n × Frames}
    (hr : producerSection P timestamp s f p = some r) : ProducerStep P s r.1 := by
  simp only [producerSection, hloop, h.pool_eq] at hr
  rcases sysBufferAcquire_result P true pool with ⟨b, pool', heq⟩ | ⟨ret, heq⟩
  · rw [heq] at hr
    obtain rfl := Option.some.inj hr
    exact fill_step h hp hloop heq f timestamp
  · rw [heq] at hr
    obtain rfl := Option.some.inj hr
    have hgone := h.gotoPool hp PoolStep.same (fun x hx => by cases hx) .condition
      fun i => by rw [hloop]; rfl
    exact ⟨⟨_, _, hgone⟩, Stream.goto_isSome hp _, rfl, rfl⟩

theorem send_step (h : s.Linked P pool ch) (hp : s.thread = some p) {b : Fin n}
    (hloop : p.loop = .send b) {timestamp : UInt64} {f : Frames} {r : Stream C n × Frames}
    (hr : producerSection P timestamp s f p = some r) : ProducerStep P s r.1 := by
  have hatt : ¬ s.attached = false := by simp [h.attached]
  simp only [producerSection, hloop, if_neg hatt, h.pool_eq] at hr
  have hok := sysBufferRetain_result P (some b) pool
  generalize hretain : sysBufferRetain P (some b) pool = retained at hr hok
  obtain ⟨ret, pool'⟩ := retained
  rcases hok with ⟨b', -, hret⟩ | ⟨hret, hsame⟩
  · obtain rfl : ret = .ok := hret
    rw [if_pos rfl] at hr
    obtain rfl := Option.some.inj hr
    have hlinked := h.gotoPool hp (PoolStep.retained hretain)
      (fun x hx => by cases hx) (.locked b) fun i => by
        rw [hloop]
        exact count_cons_eq b i [b]
    exact ⟨⟨_, _, hlinked⟩, Stream.goto_isSome hp _, rfl, rfl⟩
  · obtain rfl : pool' = pool := hsame
    rw [if_neg hret] at hr
    obtain rfl := Option.some.inj hr
    have hlinked := h.gotoPool hp PoolStep.same (fun x hx => by cases hx)
      (.release b (decide (ret = .closed))) fun i => by rw [hloop]; rfl
    exact ⟨⟨_, _, hlinked⟩, Stream.goto_isSome hp _, rfl, rfl⟩

theorem locked_step (h : s.Linked P pool ch) (hp : s.thread = some p) {b : Fin n}
    (hloop : p.loop = .locked b) {timestamp : UInt64} {f : Frames} {r : Stream C n × Frames}
    (hr : producerSection P timestamp s f p = some r) : ProducerStep P s r.1 := by
  simp only [producerSection, hloop, h.channel_eq] at hr
  obtain ⟨hvalid, hspec⟩ := sendEnter_spec h.valid b 0
  have hreferences : (sendEnter P b 0 ch).1.referenceCount = ch.referenceCount :=
    sendEnter_references b 0
  generalize sendEnter P b 0 ch = result at hr hvalid hspec hreferences
  obtain ⟨ch', outcome, obs⟩ := result
  dsimp only at hr hvalid hspec hreferences
  -- what the send puts into the queue it takes from the producer
  have hlinked : ∀ ret releases, outcome = .leave ret releases →
      (∀ i, (b :: releases).count i + ch'.items.count i = [b, b].count i + ch.items.count i) →
      ProducerStep P s (Stream.goto { s with channel := some ch' } (.unwind b ret releases)) := by
    intro ret releases _ hmove
    refine ⟨⟨pool, ch', h.moveQueue rfl rfl rfl rfl hvalid hreferences h.held_finite fun i => ?_⟩,
      Stream.goto_isSome hp _, rfl, rfl⟩
    have hnew : (Stream.goto { s with channel := some ch' } (.unwind b ret releases)).producerRefs =
        b :: releases := Stream.goto_refs hp _
    rw [hnew, Stream.refs_of_loop hp hloop]
    have hi := hmove i
    show (b :: releases).count i + (∑ᶠ c, s.held c i) + _ = [b, b].count i + _ + _
    omega
  have hitems : ch'.fifo.items = ch'.items := rfl
  generalize hfifo : ch'.fifo = q at hspec hitems
  cases hspec with
  | waits => cases hr
  | @failed ret hret =>
      obtain rfl := Option.some.inj hr
      refine hlinked _ _ rfl fun i => ?_
      rw [← hitems]
      rfl
  | pushed hopen hlt =>
      obtain rfl := Option.some.inj hr
      refine hlinked _ _ rfl fun i => ?_
      rw [← hitems]
      show [b].count i + (ch.items ++ [b]).count i = _
      rw [List.count_append, count_cons_eq b i [b]]
      omega
  | @replaced oldest rest hopen hdrop hold hfull =>
      obtain rfl := Option.some.inj hr
      refine hlinked _ _ rfl fun i => ?_
      have hold : ch.items = oldest :: rest := hold
      rw [← hitems, hold]
      show [b, oldest].count i + (rest ++ [b]).count i = _
      rw [List.count_append, count_cons_eq b i [oldest], count_cons_eq b i [b],
        count_cons_eq oldest i rest]
      omega

/-- Every section of the producer keeps the stream up, and the consumers' references. -/
theorem cameraProducer_step (h : s.Live P) {timestamp : UInt64} {f : Frames}
    {r : Stream C n × Frames} (hr : cameraProducer P timestamp s f = some r) :
    ProducerStep P s r.1 := by
  obtain ⟨pool, ch, h⟩ := h
  cases hp : s.thread with
  | none =>
      rw [cameraProducer, hp] at hr
      cases hr
  | some p =>
      rw [cameraProducer, hp] at hr
      have hr : producerSection P timestamp s f p = some r := hr
      have hdone : ∀ {s' : Stream C n} {loop : ProducerLoop n} {pool' : Pool n},
          Stream.Linked P (Stream.goto s' loop) pool' ch → s'.thread = s.thread →
          s'.refs = s.refs → s'.held = s.held → ProducerStep P s (s'.goto loop) := by
        intro s' loop pool' hlinked hthread hrefs hheld
        exact ⟨⟨_, _, hlinked⟩, Stream.goto_isSome (hthread.trans hp) _, hrefs, hheld⟩
      cases hloop : p.loop with
      | condition =>
          simp only [producerSection, hloop] at hr
          obtain rfl := Option.some.inj hr
          refine hdone (h.goto hp ?_) rfl rfl rfl
          rw [hloop]
          split <;> rfl
      | acquire => exact acquire_step h hp hloop hr
      | send b => exact send_step h hp hloop hr
      | locked b => exact locked_step h hp hloop hr
      | unwind b ret releases =>
          cases releases with
          | nil =>
              simp only [producerSection, hloop] at hr
              obtain rfl := Option.some.inj hr
              refine hdone (h.goto hp ?_) rfl rfl rfl
              rw [hloop]
              rfl
          | cons x rest =>
              simp only [producerSection, hloop] at hr
              obtain rfl := Option.some.inj hr
              refine hdone (h.gotoRelease hp x (b :: rest) ?_ rfl) rfl rfl rfl
              rw [hloop]
              exact List.Perm.swap x b rest
      | release b leaves =>
          simp only [producerSection, hloop] at hr
          obtain rfl := Option.some.inj hr
          refine hdone (h.gotoRelease hp b [] ?_ ?_) rfl rfl rfl
          · rw [hloop]
            exact List.Perm.refl [b]
          · split <;> rfl
      | exited =>
          simp only [producerSection, hloop] at hr
          cases hr

end Producer

end Linked

end Camera
end AppCore
