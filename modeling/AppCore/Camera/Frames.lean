/-
  AppCore.Camera.Frames

  The frames of a stream.  The producer numbers them from zero, and the consumers together
  receive them in that order, none twice and none left out; the queue of the channel has
  room for every buffer of the pool, so that no frame is refused.
-/

import AppCore.Camera.Calls

namespace AppCore
namespace Camera

open Channel

variable {T C : Type*} {n : Nat} {P : Platform}

/-- `b` is frame `i` of the stream with number `generation`, at any time. -/
structure IsFrame (generation : UInt64) (i : Nat) (b : Buffer) : Prop where
  size : b.size = frameTextLength (UInt64.ofNat i) + 1
  sequence : b.sequence = UInt64.ofNat i
  type : b.type = cameraBufferTypeVideoFrame
  version : b.version = cameraBufferFormatVersion
  generation : b.generation = generation

/-- The first frames of a stream in their order. -/
def InOrder (generation : UInt64) (l : List Buffer) : Prop :=
  ∀ i b, l[i]? = some b → IsFrame generation i b

theorem InOrder.nil {generation : UInt64} : InOrder generation [] := by
  intro i b hb
  cases hb

theorem InOrder.snoc {generation : UInt64} {l : List Buffer} {b : Buffer}
    (h : InOrder generation l) (hb : IsFrame generation l.length b) :
    InOrder generation (l ++ [b]) := by
  intro i b' hi
  rcases Nat.lt_or_ge i l.length with hlt | hge
  · rw [List.getElem?_append_left hlt] at hi
    exact h i b' hi
  · rw [List.getElem?_append_right hge] at hi
    have hzero : i - l.length = 0 := by
      by_contra hne
      rw [List.getElem?_eq_none (by rw [List.length_singleton]; omega)] at hi
      cases hi
    rw [hzero, List.getElem?_cons_zero] at hi
    obtain rfl := Option.some.inj hi
    obtain rfl : i = l.length := by omega
    exact hb

theorem InOrder.left {generation : UInt64} {l l' : List Buffer}
    (h : InOrder generation (l ++ l')) : InOrder generation l := by
  intro i b hi
  apply h
  rw [List.getElem?_append_left (List.getElem?_eq_some_iff.mp hi).1]
  exact hi

/-! ## What is in a buffer -/

section Content

variable {pool pool' : Pool n} {b : Fin n}

/-- The size, the timestamp and the labels of a buffer, whoever refers to it. -/
def content (pool : Pool n) (b : Fin n) : Buffer := { pool.buffers b with referenceCount := 0 }

theorem content_retain (buffer : Option (Fin n)) :
    content (sysBufferRetain P buffer pool).2 = content pool := by
  cases buffer with
  | none => rfl
  | some x =>
      simp only [sysBufferRetain]
      split
      · rfl
      · split
        · rfl
        · funext i
          simp only [content, Function.update_apply]
          split
          · rename_i hi
            rw [hi]
          · rfl

theorem content_release (buffer : Option (Fin n)) :
    content (sysBufferRelease P buffer pool) = content pool := by
  cases buffer with
  | none => rfl
  | some x =>
      simp only [sysBufferRelease]
      split
      · funext i
        simp only [content, Function.update_apply]
        split
        · rename_i hi
          rw [hi]
        · rfl
      · rfl

/-- A buffer that is handed out was unused, and no other buffer changes. -/
theorem content_acquire {outBuffer : Bool}
    (h : sysBufferAcquire P outBuffer pool = (.ok, pool', some b)) :
    pool.count b = 0 ∧ ∀ i, i ≠ b → content pool' i = content pool i := by
  unfold sysBufferAcquire at h
  split at h
  · cases h
  · split at h
    · cases h
    · rename_i x hx
      have hzero := List.find?_some hx
      simp only [Prod.mk.injEq, Option.some.injEq, true_and] at h
      obtain ⟨rfl, rfl⟩ := h
      refine ⟨by simpa [Pool.count] using hzero, fun i hi => ?_⟩
      simp only [content, Function.update_of_ne hi]

theorem content_describe {size : Nat} {timestamp : UInt64} {f : Frames} {i : Fin n} (hi : i ≠ b) :
    content (describe pool b size timestamp f) i = content pool i := by
  simp only [content, describe, Function.update_of_ne hi]

/-- What the producer writes is its next frame. -/
theorem isFrame_describe {timestamp : UInt64} {f : Frames} {i : Nat}
    (hi : f.sequence = UInt64.ofNat i) :
    IsFrame f.generation i
      (content (describe pool b (frameTextLength f.sequence + 1) timestamp f) b) := by
  constructor <;> simp [content, describe, hi]

end Content

/-! ## A stream with its frames -/

/-- Only the producer refers to `b`. -/
def Stream.Private (s : Stream C n) (ch : SysChannel n) (b : Fin n) : Prop :=
  b ∉ ch.items ∧ ∀ c, s.held c b = 0

/-- What the producer has in its hands when `m` frames have gone into the queue. -/
def ProducerLoop.AtFrame (s : Stream C n) (f : Frames) (pool : Pool n) (ch : SysChannel n)
    (m : Nat) : ProducerLoop n → Prop
  | .condition => f.sequence = UInt64.ofNat m
  | .acquire => f.sequence = UInt64.ofNat m
  | .send b => f.sequence = UInt64.ofNat (m + 1) ∧ IsFrame f.generation m (content pool b) ∧
      s.Private ch b
  | .locked b => f.sequence = UInt64.ofNat (m + 1) ∧ IsFrame f.generation m (content pool b) ∧
      s.Private ch b
  | .unwind _ ret releases =>
      ret = .closed ∨ ret = .ok ∧ releases = [] ∧ f.sequence = UInt64.ofNat m
  | .release _ leaves => leaves = true ∨ f.sequence = UInt64.ofNat m
  | .exited => True

/-- The frames of a stream of which the consumers have received `r`: those in the queue come
    next, each in a buffer of its own, and the producer is at the one after them. -/
structure Stream.Ordered (s : Stream C n) (f : Frames) (r : List Buffer) (pool : Pool n)
    (ch : SysChannel n) : Prop where
  two_le : 2 ≤ n
  capacity : ch.capacity = n
  nodup : ch.items.Nodup
  inOrder : InOrder f.generation (r ++ ch.items.map (content pool))
  producer : ∀ p, s.thread = some p →
    p.loop.AtFrame s f pool ch (r.length + ch.items.length)

section Ordered

variable {s : Stream C n} {f : Frames} {r : List Buffer} {pool pool' : Pool n}
  {ch ch' : SysChannel n}

/-- A buffer that nobody has a reference of is private when the producer takes it. -/
theorem Stream.Linked.private_of_unused (h : s.Linked P pool ch) {b : Fin n}
    (hb : pool.count b = 0) : s.Private ch b := by
  have hbalance := h.balance b
  have hitems : ch.items.count b = 0 := by omega
  refine ⟨List.count_eq_zero.mp hitems, fun c => ?_⟩
  have hle := single_le_finsum c (h.held_finite b) fun _ => Nat.zero_le _
  omega

/-- A private buffer has the producer's references only. -/
theorem Stream.Linked.count_private (h : s.Linked P pool ch) {b : Fin n} (hb : s.Private ch b) :
    pool.count b = s.producerRefs.count b := by
  have hheld : (fun c => s.held c b) = fun _ => 0 := funext hb.2
  rw [h.balance, List.count_eq_zero.mpr hb.1, hheld, finsum_zero]
  omega

/-- The queue has room for a buffer that is not in it. -/
theorem Stream.Ordered.room (h : s.Ordered f r pool ch) {b : Fin n} (hb : b ∉ ch.items) :
    ch.items.length < ch.capacity := by
  have hnodup : (b :: ch.items).Nodup := List.nodup_cons.mpr ⟨hb, h.nodup⟩
  have hle := hnodup.length_le_card
  rw [List.length_cons, Fintype.card_fin] at hle
  rw [h.capacity]
  exact hle

/-- Buffers that are not in the queue may change. -/
theorem Stream.Ordered.inOrder_congr (h : s.Ordered f r pool ch)
    (hcontent : ∀ i ∈ ch.items, content pool' i = content pool i) :
    InOrder f.generation (r ++ ch.items.map (content pool')) := by
  rw [List.map_congr_left hcontent]
  exact h.inOrder

/-- The producer goes on, beside the same queue. -/
theorem Stream.Ordered.goto (h : s.Ordered f r pool ch) {loop : ProducerLoop n} {f' : Frames}
    (hgeneration : f'.generation = f.generation)
    (hcontent : ∀ i ∈ ch.items, content pool' i = content pool i)
    (hloop : loop.AtFrame s f' pool' ch (r.length + ch.items.length)) :
    (Stream.goto { s with pool := some pool' } loop).Ordered f' r pool' ch where
  two_le := h.two_le
  capacity := h.capacity
  nodup := h.nodup
  inOrder := by
    rw [hgeneration]
    exact h.inOrder_congr hcontent
  producer := by
    intro p hp
    obtain ⟨p₀, -, rfl⟩ := Option.map_eq_some_iff.mp hp
    cases loop with
    | _ => exact hloop

/-! ## The producer -/

/-- A send that finds room puts its buffer into the queue, or finds the channel closed. -/
theorem sendEnter_room (hvalid : ch.Valid P) (hlt : ch.count < ch.capacity) (b : Fin n)
    (timeoutMs : Int) :
    sendEnter P b timeoutMs ch = (ch, .leave .closed [b], []) ∨
      ∃ ch', sendEnter P b timeoutMs ch = (ch', .leave .ok [], [.accepted b]) ∧
        ch'.fifo = { ch.fifo with items := ch.items ++ [b] } := by
  have hfull : ¬ ch.count = ch.capacity := by omega
  have hloop : sendEnter P b timeoutMs ch = sendLoop P b none timeoutMs ch := by
    unfold sendEnter
    simp only [hfull, if_false, false_and]
  rw [hloop]
  cases hclosed : ch.closed with
  | false =>
      obtain ⟨ch', heq, -, hfifo⟩ := sendLoop_accepts hvalid hlt hclosed b none timeoutMs
      exact Or.inr ⟨ch', heq, hfifo⟩
  | true =>
      left
      unfold sendLoop
      rw [if_neg (fun hboth => hfull hboth.1), if_pos hclosed]
      rfl

/-- What a section of the producer leaves of the frames. -/
structure OrderedAfter (s' : Stream C n) (f f' : Frames) (r : List Buffer) : Prop where
  generation : f'.generation = f.generation
  ordered : ∃ pool ch, s'.pool = some pool ∧ s'.channel = some ch ∧ s'.Ordered f' r pool ch

theorem Stream.Ordered.after (h : s.Ordered f r pool ch) (hchannel : s.channel = some ch)
    {loop : ProducerLoop n} {f' : Frames} (hgeneration : f'.generation = f.generation)
    (hcontent : ∀ i ∈ ch.items, content pool' i = content pool i)
    (hloop : loop.AtFrame s f' pool' ch (r.length + ch.items.length)) :
    OrderedAfter (Stream.goto { s with pool := some pool' } loop) f f' r :=
  ⟨hgeneration, pool', ch, rfl, hchannel, h.goto hgeneration hcontent hloop⟩

theorem Stream.Linked.eta (h : s.Linked P pool ch) : { s with pool := some pool } = s := by
  rw [← h.pool_eq]

section Producer

variable {p : Producer n} {timestamp : UInt64} {s' : Stream C n × Frames}

theorem acquire_ordered (hl : s.Linked P pool ch) (h : s.Ordered f r pool ch)
    (hp : s.thread = some p) (hloop : p.loop = .acquire)
    (hs : producerSection P timestamp s f p = some s') : OrderedAfter s'.1 f s'.2 r := by
  have hm := h.producer p hp
  rw [hloop] at hm
  simp only [producerSection, hloop, hl.pool_eq] at hs
  rcases sysBufferAcquire_result P true pool with ⟨b, pool', heq⟩ | ⟨ret, heq⟩
  · rw [heq] at hs
    obtain rfl := Option.some.inj hs
    obtain ⟨hzero, hothers⟩ := content_acquire heq
    have hb : s.Private ch b := hl.private_of_unused hzero
    have hcontent : ∀ i ∈ ch.items, content pool' i = content pool i := by
      intro i hi
      apply hothers
      rintro rfl
      exact hb.1 hi
    show OrderedAfter (s.fill f pool' b timestamp).1 f (s.fill f pool' b timestamp).2 r
    unfold Stream.fill
    dsimp only
    split
    · exact h.after hl.channel_eq rfl hcontent (Or.inl rfl)
    · split
      · exact h.after hl.channel_eq rfl hcontent (Or.inl rfl)
      · refine h.after hl.channel_eq rfl (fun i hi => ?_) ⟨?_, isFrame_describe hm, hb⟩
        · have hne : i ≠ b := by
            rintro rfl
            exact hb.1 hi
          rw [content_describe hne]
          exact hcontent i hi
        · show f.sequence + 1 = _
          rw [hm]
          exact (UInt64.ofNat_add _ 1).symm
  · rw [heq] at hs
    obtain rfl := Option.some.inj hs
    exact h.after hl.channel_eq rfl (fun _ _ => rfl) hm

/-- A private buffer can be retained. -/
theorem Stream.Ordered.retain_ok (hl : s.Linked P pool ch) (h : s.Ordered f r pool ch)
    (hp : s.thread = some p) {b : Fin n} (hloop : p.loop = .send b) (hb : s.Private ch b) :
    (sysBufferRetain P (some b) pool).1 = .ok := by
  have hone : (pool.buffers b).referenceCount = 1 := by
    have hcount := hl.count_private hb
    rw [Stream.refs_of_loop hp hloop, ProducerLoop.refs, List.count_singleton_self] at hcount
    exact hcount
  have hle := hl.counted.blocks_le
  have htwo := h.two_le
  have hmax : ¬ 1 = P.sizeMax := by omega
  simp only [sysBufferRetain, hone]
  rw [if_neg Nat.one_ne_zero, if_neg hmax]

theorem send_ordered (hl : s.Linked P pool ch) (h : s.Ordered f r pool ch)
    (hp : s.thread = some p) {b : Fin n} (hloop : p.loop = .send b)
    (hs : producerSection P timestamp s f p = some s') : OrderedAfter s'.1 f s'.2 r := by
  have hm := h.producer p hp
  rw [hloop] at hm
  obtain ⟨hsequence, hframe, hb⟩ := hm
  have hatt : ¬ s.attached = false := by simp [hl.attached]
  have hret : (sysBufferRetain P (some b) pool).1 = .ok := h.retain_ok hl hp hloop hb
  simp only [producerSection, hloop, if_neg hatt, hl.pool_eq, if_pos hret] at hs
  obtain rfl := Option.some.inj hs
  have hcontent : content (sysBufferRetain P (some b) pool).2 = content pool :=
    content_retain (some b)
  refine h.after hl.channel_eq rfl (fun i _ => congrFun hcontent i) ⟨hsequence, ?_, hb⟩
  rw [congrFun hcontent b]
  exact hframe

/-- The frame in the producer's hands is the next one in the queue, unless the channel is
    closed. -/
theorem locked_ordered (hl : s.Linked P pool ch) (h : s.Ordered f r pool ch)
    (hp : s.thread = some p) {b : Fin n} (hloop : p.loop = .locked b)
    (hs : producerSection P timestamp s f p = some s') : OrderedAfter s'.1 f s'.2 r := by
  have hm := h.producer p hp
  rw [hloop] at hm
  obtain ⟨hsequence, hframe, hb⟩ := hm
  have hlt : ch.count < ch.capacity := by
    rw [← hl.valid.length_items]
    exact h.room hb.1
  simp only [producerSection, hloop, hl.channel_eq] at hs
  rcases sendEnter_room hl.valid hlt b 0 with heq | ⟨ch', heq, hfifo⟩
  · rw [heq] at hs
    obtain rfl := Option.some.inj hs
    refine ⟨rfl, pool, ch, hl.pool_eq, rfl, ?_⟩
    have hgoto : (Stream.goto { s with pool := some pool } (.unwind b .closed [b])).Ordered f r
        pool ch :=
      h.goto rfl (fun _ _ => rfl) (Or.inl rfl)
    rw [hl.eta] at hgoto
    rw [← hl.channel_eq]
    exact hgoto
  · rw [heq] at hs
    obtain rfl := Option.some.inj hs
    have hitems : ch'.items = ch.items ++ [b] := congrArg Fifo.State.items hfifo
    have hlength : r.length + ch.items.length = (r ++ ch.items.map (content pool)).length := by
      rw [List.length_append, List.length_map]
    refine ⟨rfl, pool, ch', hl.pool_eq, rfl, h.two_le, ?_, ?_, ?_, ?_⟩
    · exact (congrArg Fifo.State.capacity hfifo).trans h.capacity
    · rw [hitems, List.nodup_append]
      refine ⟨h.nodup, List.nodup_singleton b, fun i hi j hj => ?_⟩
      obtain rfl := List.mem_singleton.mp hj
      rintro rfl
      exact hb.1 hi
    · rw [hitems, List.map_append, ← List.append_assoc]
      apply h.inOrder.snoc
      rw [← hlength]
      exact hframe
    · intro p' hp'
      obtain ⟨p₀, -, rfl⟩ := Option.map_eq_some_iff.mp hp'
      refine Or.inr ⟨rfl, rfl, ?_⟩
      rw [hitems, List.length_append, List.length_singleton, ← Nat.add_assoc]
      exact hsequence

/-- Every section of the producer keeps the frames in their order. -/
theorem cameraProducer_ordered (hl : s.Linked P pool ch) (h : s.Ordered f r pool ch)
    (hs : cameraProducer P timestamp s f = some s') : OrderedAfter s'.1 f s'.2 r := by
  cases hp : s.thread with
  | none =>
      rw [cameraProducer, hp] at hs
      cases hs
  | some p =>
      rw [cameraProducer, hp] at hs
      have hs : producerSection P timestamp s f p = some s' := hs
      have hm := h.producer p hp
      have hstay : ∀ {loop : ProducerLoop n} {f' : Frames}, f'.generation = f.generation →
          loop.AtFrame s f' pool ch (r.length + ch.items.length) →
          OrderedAfter (s.goto loop) f f' r := by
        intro loop f' hgeneration hloop
        have hafter : OrderedAfter (Stream.goto { s with pool := some pool } loop) f f' r :=
          h.after hl.channel_eq hgeneration (fun _ _ => rfl) hloop
        rwa [hl.eta] at hafter
      have hrelease : ∀ x {loop : ProducerLoop n},
          loop.AtFrame s f (sysBufferRelease P (some x) pool) ch (r.length + ch.items.length) →
          OrderedAfter (Stream.goto { s with pool := s.pool.map (sysBufferRelease P (some x)) }
            loop) f f r := by
        intro x loop hloop
        rw [hl.pool_eq]
        exact h.after hl.channel_eq rfl (fun i _ => congrFun (content_release (some x)) i) hloop
      cases hloop : p.loop with
      | condition =>
          rw [hloop] at hm
          simp only [producerSection, hloop] at hs
          obtain rfl := Option.some.inj hs
          apply hstay rfl
          split
          · trivial
          · exact hm
      | acquire => exact acquire_ordered hl h hp hloop hs
      | send b => exact send_ordered hl h hp hloop hs
      | locked b => exact locked_ordered hl h hp hloop hs
      | unwind b ret releases =>
          rw [hloop] at hm
          cases releases with
          | nil =>
              simp only [producerSection, hloop, Stream.sendReturned] at hs
              obtain rfl := Option.some.inj hs
              rcases hm with rfl | ⟨rfl, -, hsequence⟩
              · exact hstay rfl (Or.inl rfl)
              · exact hstay rfl (Or.inr hsequence)
          | cons x rest =>
              simp only [producerSection, hloop] at hs
              obtain rfl := Option.some.inj hs
              apply hrelease x
              rcases hm with rfl | ⟨-, hnil, -⟩
              · exact Or.inl rfl
              · cases hnil
      | release b leaves =>
          rw [hloop] at hm
          simp only [producerSection, hloop] at hs
          obtain rfl := Option.some.inj hs
          apply hrelease b
          cases leaves with
          | true => trivial
          | false => exact hm.resolve_left (by decide)
      | exited =>
          simp only [producerSection, hloop] at hs
          cases hs

end Producer

/-! ## The consumers -/

/-- The frame that an action hands to its consumer. -/
def Stream.handed (P : Platform) (s : Stream C n) : ConsumerAction → List Buffer
  | .receive timeoutMs ret =>
    match s.pool, s.channel with
    | some pool, some ch =>
      match (receiveWake P timeoutMs ret ch).2.1 with
      | .leave _ (some b) => [content pool b]
      | _ => []
    | _, _ => []
  | _ => []

/-- The frame in the producer's hands stays as it is, and its own. -/
theorem ProducerLoop.AtFrame.move {s' : Stream C n} {loop : ProducerLoop n} {m : Nat}
    (h : loop.AtFrame s f pool ch m) (hcontent : content pool' = content pool)
    (hprivate : ∀ b, s.Private ch b → s'.Private ch' b) : loop.AtFrame s' f pool' ch' m := by
  cases loop with
  | send b =>
      obtain ⟨hsequence, hframe, hb⟩ := h
      rw [← hcontent] at hframe
      exact ⟨hsequence, hframe, hprivate b hb⟩
  | locked b =>
      obtain ⟨hsequence, hframe, hb⟩ := h
      rw [← hcontent] at hframe
      exact ⟨hsequence, hframe, hprivate b hb⟩
  | _ => exact h

section Consumer

variable {s' : Stream C n}

/-- A consumer has changed its references, or the channel's count. -/
theorem Stream.Ordered.beside (h : s.Ordered f r pool ch) (hthread : s'.thread = s.thread)
    (hitems : ch'.items = ch.items) (hcapacity : ch'.capacity = ch.capacity)
    (hcontent : content pool' = content pool)
    (hprivate : ∀ b, s.Private ch b → ∀ c, s'.held c b = 0) : s'.Ordered f r pool' ch' where
  two_le := h.two_le
  capacity := hcapacity.trans h.capacity
  nodup := by
    rw [hitems]
    exact h.nodup
  inOrder := by
    rw [hitems, hcontent]
    exact h.inOrder
  producer := by
    intro p hp
    rw [hthread] at hp
    rw [hitems]
    refine (h.producer p hp).move hcontent fun b hb => ⟨?_, hprivate b hb⟩
    rw [hitems]
    exact hb.1

variable [DecidableEq C] {c : C}

theorem setHeld_private {b x : Fin n} {count : Nat} (hb : ∀ c, s.held c b = 0) (hne : b ≠ x)
    (c' : C) : (s.setHeld c x count).held c' b = 0 := by
  by_cases hc : c' = c
  · subst hc
    show Function.update s.held c' _ c' b = 0
    rw [Function.update_self, Function.update_of_ne hne]
    exact hb c'
  · rw [setHeld_of_ne x count hc]
    exact hb c'

theorem receive_ordered (hl : s.Linked P pool ch) (h : s.Ordered f r pool ch)
    {timeoutMs ret : Int} (hs : consume P c s (.receive timeoutMs ret) = some s') :
    OrderedAfter s' f f (r ++ s.handed P (.receive timeoutMs ret)) := by
  simp only [consume, hl.channel_eq, Option.map_some] at hs
  simp only [Stream.handed, hl.pool_eq, hl.channel_eq]
  obtain ⟨-, hspec, -⟩ := receiveWake_spec hl.valid timeoutMs ret
  generalize receiveWake P timeoutMs ret ch = result at hs hspec
  obtain ⟨ch', outcome, obs⟩ := result
  dsimp only at hs hspec ⊢
  generalize hq : ch'.fifo = q at hspec
  have hitems : ch'.items = q.items := congrArg Fifo.State.items hq
  have hcapacity : ch'.capacity = q.capacity := congrArg Fifo.State.capacity hq
  -- a receive that hands out nothing leaves the queue
  have hkeep : ch'.items = ch.items → ch'.capacity = ch.capacity →
      OrderedAfter { s with channel := some ch' } f f (r ++ []) := by
    intro hitems hcapacity
    rw [List.append_nil]
    exact ⟨rfl, pool, ch', hl.pool_eq, rfl, h.beside rfl hitems hcapacity rfl fun b hb => hb.2⟩
  cases hspec with
  | waits =>
      obtain rfl := Option.some.inj hs
      exact hkeep hitems hcapacity
  | failed =>
      obtain rfl := Option.some.inj hs
      exact hkeep hitems hcapacity
  | closed =>
      obtain rfl := Option.some.inj hs
      exact hkeep hitems hcapacity
  | @popped x rest hpop =>
      obtain rfl := Option.some.inj hs
      have hpop : ch.items = x :: rest := hpop
      have hitems : ch'.items = rest := hitems
      have hrest : (r ++ [content pool x]).length + ch'.items.length =
          r.length + ch.items.length := by
        rw [hitems, hpop, List.length_append, List.length_singleton, List.length_cons]
        omega
      refine ⟨rfl, pool, ch', hl.pool_eq, rfl, h.two_le, hcapacity.trans h.capacity, ?_, ?_,
        fun p hp => ?_⟩
      · rw [hitems]
        have hnodup := h.nodup
        rw [hpop] at hnodup
        exact hnodup.of_cons
      · have hin := h.inOrder
        rw [hpop, List.map_cons] at hin
        rw [hitems, List.append_assoc]
        exact hin
      · rw [hrest]
        refine (h.producer p hp).move rfl fun b hb => ?_
        have hnot := hb.1
        rw [hpop] at hnot
        refine ⟨?_, setHeld_private hb.2 (List.ne_of_not_mem_cons hnot)⟩
        rw [hitems]
        exact List.not_mem_of_not_mem_cons hnot

/-- What a consumer does keeps the frames in their order, and hands it the next one. -/
theorem consume_ordered (hl : s.Linked P pool ch) (h : s.Ordered f r pool ch)
    {action : ConsumerAction} (hc : action.Owned s c) (hs : consume P c s action = some s') :
    OrderedAfter s' f f (r ++ s.handed P action) := by
  have hkeep : ∀ {pool' ch'}, s'.pool = some pool' → s'.channel = some ch' →
      s'.Ordered f r pool' ch' → OrderedAfter s' f f (r ++ []) := by
    intro pool' ch' hpool hchannel hordered
    rw [List.append_nil]
    exact ⟨rfl, pool', ch', hpool, hchannel, hordered⟩
  -- a buffer of which the consumer has a reference is not private
  have hshared : ∀ {b x}, s.Private ch b → 0 < s.held c x → b ≠ x := by
    rintro b x hb hx rfl
    rw [hb.2 c] at hx
    exact Nat.lt_irrefl 0 hx
  cases action with
  | retain =>
      simp only [consume, hl.channel_eq, Option.map_some] at hs
      cases hloop : channelRetainLoop P ch.referenceCount with
      | some e =>
          simp only [hloop] at hs
          obtain rfl := Option.some.inj hs
          exact hkeep hl.pool_eq hl.channel_eq h
      | none =>
          simp only [hloop, channelExchange, and_self, if_true] at hs
          obtain rfl := Option.some.inj hs
          exact hkeep hl.pool_eq rfl (h.beside rfl rfl rfl rfl fun b hb => hb.2)
  | release =>
      have hsum := sum_owned_sub hl.refs_finite hc
      have hreferences := hl.references
      have hnot : ch.referenceCount ≠ 1 := by omega
      have hfirst : (channelFetchSub P ch).1 = ch.referenceCount := rfl
      simp only [consume, hl.channel_eq, Option.map_some, sysChannelRelease, hfirst, hl.fetchSub]
        at hs
      rw [if_pos hnot] at hs
      obtain rfl := Option.some.inj hs
      exact hkeep hl.pool_eq rfl (h.beside rfl rfl rfl rfl fun b hb => hb.2)
  | receive timeoutMs ret => exact receive_ordered hl h hs
  | bufferRetain buffer =>
      obtain ⟨hb, hheld⟩ := hc
      simp only [consume, dif_pos hb, hl.pool_eq, Option.map_some] at hs
      have hcontent : content (sysBufferRetain P (some ⟨buffer, hb⟩) pool).2 = content pool :=
        content_retain (some ⟨buffer, hb⟩)
      by_cases hret : (sysBufferRetain P (some ⟨buffer, hb⟩) pool).1 = .ok
      · rw [if_pos hret] at hs
        obtain rfl := Option.some.inj hs
        exact hkeep rfl hl.channel_eq (h.beside rfl rfl rfl hcontent
          fun b hb => setHeld_private hb.2 (hshared hb hheld))
      · rw [if_neg hret] at hs
        obtain rfl := Option.some.inj hs
        exact hkeep rfl hl.channel_eq (h.beside rfl rfl rfl hcontent fun b hb => hb.2)
  | bufferRelease buffer =>
      obtain ⟨hb, hheld⟩ := hc
      simp only [consume, dif_pos hb, hl.pool_eq, Option.map_some] at hs
      obtain rfl := Option.some.inj hs
      have hcontent : content (sysBufferRelease P (some ⟨buffer, hb⟩) pool) = content pool :=
        content_release (some ⟨buffer, hb⟩)
      exact hkeep rfl hl.channel_eq (h.beside rfl rfl rfl hcontent
        fun b hb => setHeld_private hb.2 (hshared hb hheld))

end Consumer

end Ordered

end Camera
end AppCore
