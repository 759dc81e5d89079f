/-
  AppCore.Camera.Backpressure

  What slow consumers do to a stream: the producer drops a frame when every buffer of the
  pool is queued or with a consumer, and only then, and it never sets the size or a label of
  a buffer that is queued or with a consumer.
-/

import AppCore.Camera.Sequence

namespace AppCore
namespace Camera

open Channel

variable {T C : Type*} {n : Nat} {P : Platform}

/-! ## Dropped frames -/

/-- Every buffer is queued or with a consumer. -/
def Stream.Exhausted (s : Stream C n) : Prop :=
  ∃ ch, s.channel = some ch ∧ ∀ b, b ∈ ch.items ∨ ∃ c, 0 < s.held c b

/-- The producer is about to take a buffer, and there is none. -/
def Stream.OutOfBuffers (s : Stream C n) : Prop :=
  ∃ p, s.thread = some p ∧ p.loop = .acquire ∧ s.Exhausted

/-- A section of the producer that counts the dropped frames right. -/
structure DropStep (s : Stream C n) (f f' : Frames) : Prop where
  dropped : s.OutOfBuffers → f'.dropped = f.dropped + 1
  kept : ¬ s.OutOfBuffers → f'.dropped = f.dropped

section Producer

variable {s : Stream C n} {f : Frames} {r : List Buffer} {pool pool' : Pool n}
  {ch : SysChannel n} {p : Producer n} {timestamp : UInt64} {s' : Stream C n × Frames}

/-- A producer that is not at `sys_buffer_acquire` drops nothing. -/
theorem DropStep.same (hp : s.thread = some p) (hloop : p.loop ≠ .acquire)
    {f' : Frames} (hf : f'.dropped = f.dropped) : DropStep s f f' := by
  refine ⟨fun ⟨p', hp', hacquire, _⟩ => ?_, fun _ => hf⟩
  rw [hp] at hp'
  obtain rfl := Option.some.inj hp'
  exact absurd hacquire hloop

/-- A buffer that has a reference, though the producer has none, is queued or with a consumer. -/
theorem Stream.Linked.count_pos_iff (h : s.Linked P pool ch) {b : Fin n}
    (hb : s.producerRefs.count b = 0) :
    pool.count b ≠ 0 ↔ b ∈ ch.items ∨ ∃ c, 0 < s.held c b := by
  have hbalance := h.balance b
  constructor
  · intro hpos
    by_cases hitem : b ∈ ch.items
    · exact Or.inl hitem
    · right
      have hzero := List.count_eq_zero.mpr hitem
      by_contra hnone
      have hheld : ∀ c, s.held c b = 0 := by
        intro c
        by_contra hne
        exact hnone ⟨c, Nat.pos_of_ne_zero hne⟩
      have hsum : (∑ᶠ c, s.held c b) = 0 := finsum_eq_zero_of_forall_eq_zero hheld
      omega
  · rintro (hitem | ⟨c, hc⟩)
    · have hpos := List.count_pos_iff.mpr hitem
      omega
    · exact h.held_pos hc

/-- `sys_buffer_acquire` fails when every buffer has a reference. -/
theorem sysBufferAcquire_none_iff :
    (sysBufferAcquire P true pool).2.2 = none ↔ ∀ b, pool.count b ≠ 0 := by
  unfold sysBufferAcquire
  rw [if_neg (by decide)]
  cases hfind : (List.finRange n).find? fun b => (pool.buffers b).referenceCount = 0 with
  | none =>
      refine iff_of_true rfl fun b => ?_
      simpa [Pool.count] using List.find?_eq_none.mp hfind b (List.mem_finRange b)
  | some b =>
      refine iff_of_false (by simp) fun hall => hall b ?_
      simpa [Pool.count] using List.find?_some hfind

theorem fill_dropped (s : Stream C n) (f : Frames) (pool : Pool n) (b : Fin n)
    (timestamp : UInt64) : (s.fill f pool b timestamp).2.dropped = f.dropped := by
  unfold Stream.fill
  dsimp only
  split
  · rfl
  · split <;> rfl

theorem acquire_drops (hl : s.Linked P pool ch) (hp : s.thread = some p)
    (hloop : p.loop = .acquire) (hs : producerSection P timestamp s f p = some s') :
    DropStep s f s'.2 := by
  have hrefs : ∀ b, s.producerRefs.count b = 0 := by
    intro b
    rw [Stream.refs_of_loop hp hloop]
    rfl
  have hexhausted : s.OutOfBuffers ↔ ∀ b, pool.count b ≠ 0 := by
    constructor
    · rintro ⟨_, _, _, ch', hch', hall⟩ b
      rw [hl.channel_eq] at hch'
      obtain rfl := Option.some.inj hch'
      exact (hl.count_pos_iff (hrefs b)).mpr (hall b)
    · intro hall
      exact ⟨p, hp, hloop, ch, hl.channel_eq, fun b => (hl.count_pos_iff (hrefs b)).mp (hall b)⟩
  simp only [producerSection, hloop, hl.pool_eq] at hs
  have hnone : (sysBufferAcquire P true pool).2.2 = none ↔ ∀ b, pool.count b ≠ 0 :=
    sysBufferAcquire_none_iff
  rw [← hexhausted] at hnone
  rcases sysBufferAcquire_result P true pool with ⟨b, pool', heq⟩ | ⟨ret, heq⟩
  · rw [heq] at hs hnone
    obtain rfl := Option.some.inj hs
    have hnot : ¬ s.OutOfBuffers := fun hout => by cases hnone.mpr hout
    exact ⟨fun hout => absurd hout hnot, fun _ => fill_dropped ..⟩
  · rw [heq] at hs hnone
    obtain rfl := Option.some.inj hs
    exact ⟨fun _ => rfl, fun hnot => absurd (hnone.mp rfl) hnot⟩

theorem cameraProducer_drops (hl : s.Linked P pool ch) (h : s.Ordered f r pool ch)
    (hs : cameraProducer P timestamp s f = some s') : DropStep s f s'.2 := by
  cases hp : s.thread with
  | none =>
      rw [cameraProducer, hp] at hs
      cases hs
  | some p =>
      rw [cameraProducer, hp] at hs
      have hs : producerSection P timestamp s f p = some s' := hs
      have hm := h.producer p hp
      cases hloop : p.loop with
      | acquire => exact acquire_drops hl hp hloop hs
      | condition =>
          simp only [producerSection, hloop] at hs
          obtain rfl := Option.some.inj hs
          exact DropStep.same hp (by simp [hloop]) rfl
      | send b =>
          rw [hloop] at hm
          obtain ⟨-, -, hb⟩ := hm
          have hatt : ¬ s.attached = false := by simp [hl.attached]
          have hret : (sysBufferRetain P (some b) pool).1 = .ok := h.retain_ok hl hp hloop hb
          simp only [producerSection, hloop, if_neg hatt, hl.pool_eq, if_pos hret] at hs
          obtain rfl := Option.some.inj hs
          exact DropStep.same hp (by simp [hloop]) rfl
      | locked b =>
          simp only [producerSection, hloop, hl.channel_eq] at hs
          split at hs
          · obtain rfl := Option.some.inj hs
            exact DropStep.same hp (by simp [hloop]) rfl
          · cases hs
      | unwind b ret releases =>
          rw [hloop] at hm
          cases releases with
          | nil =>
              simp only [producerSection, hloop, Stream.sendReturned] at hs
              obtain rfl := Option.some.inj hs
              refine DropStep.same hp (by simp [hloop]) ?_
              rcases hm with rfl | ⟨rfl, -, -⟩ <;> rfl
          | cons x rest =>
              simp only [producerSection, hloop] at hs
              obtain rfl := Option.some.inj hs
              exact DropStep.same hp (by simp [hloop]) rfl
      | release b leaves =>
          simp only [producerSection, hloop] at hs
          obtain rfl := Option.some.inj hs
          exact DropStep.same hp (by simp [hloop]) rfl
      | exited =>
          simp only [producerSection, hloop] at hs
          cases hs

end Producer

section Reachable

variable [DecidableEq T] [DecidableEq C] {s s' : System T C} {timestamp : UInt64}

/-- In every run, a section of the producer counts a dropped frame exactly when every buffer of
    the pool is queued or with a consumer.  The queue itself never refuses a frame. -/
theorem dropped_iff_outOfBuffers (hP : 0 < P.uintMax) (h : (cameraMachine T C P).Reachable s)
    (hstep : (cameraMachine T C P).step s (.producer timestamp) s') :
    DropStep s.camera.stream s.camera.frames s'.camera.frames := by
  obtain ⟨p, hpath⟩ := h.exists_path
  have hown := owned_of_reachable hP h
  have hordered := path_ordered hP hpath
  obtain ⟨x, hx, rfl⟩ := Option.map_eq_some_iff.mp hstep.1
  obtain ⟨pool, ch, hl⟩ := hown.live_of_producer hx
  obtain ⟨pool', hpool, ho⟩ := hordered.queued ch hl.channel_eq
  obtain rfl := Option.some.inj (hl.pool_eq.symm.trans hpool)
  exact cameraProducer_drops hl ho hx

end Reachable

/-- Two consumers keep a frame each, and the producer is about to take a third buffer. -/
def keptFrames : List (Event Unit Bool) := sharedStream ++ [.producer 9]

theorem dropped_iff_outOfBuffers_kept :
    ∃ s s' : System Unit Bool, s.camera.frames.dropped = 0 ∧ s'.camera.frames.dropped = 1 ∧
      DropStep s.camera.stream s.camera.frames s'.camera.frames := by
  obtain ⟨s, hexec, hdropped⟩ := Option.bind_eq_some_iff.mp (show
    (Machine.execIf (next .lp64) Contract (System.initial Unit Bool) keptFrames).bind
      (fun s => (next .lp64 s (.producer 9)).map fun s' =>
        (s.camera.frames.dropped, s'.camera.frames.dropped)) = some (0, 1) by decide)
  obtain ⟨s', hnext, hcounts⟩ := Option.map_eq_some_iff.mp hdropped
  obtain ⟨hzero, hone⟩ := Prod.mk.inj hcounts
  have hreach : (cameraMachine Unit Bool .lp64).Reachable s :=
    ⟨_, _, System.initial_fresh, Machine.Run.of_execIf hexec⟩
  exact ⟨s, s', hzero, hone, dropped_iff_outOfBuffers (by decide) hreach ⟨hnext, trivial⟩⟩

/-! ## Shared buffers -/

/-- The size, the timestamp and the labels of a buffer of the pool, if there is one. -/
def Stream.frame (s : Stream C n) (b : Fin n) : Option Buffer :=
  s.pool.map fun pool => content pool b

/-- A buffer is queued or with a consumer. -/
def Stream.Shares (s : Stream C n) (b : Fin n) : Prop :=
  (∃ ch, s.channel = some ch ∧ b ∈ ch.items) ∨ ∃ c, 0 < s.held c b

section Frames

variable {s s' : Stream C n} {f : Frames} {pool : Pool n} {ch : SysChannel n} {b : Fin n}

theorem Stream.Linked.frame_eq (h : s.Linked P pool ch) : s.frame b = some (content pool b) := by
  rw [Stream.frame, h.pool_eq]
  rfl

theorem Stream.Linked.count_pos (h : s.Linked P pool ch) (hb : s.Shares b) :
    pool.count b ≠ 0 := by
  rcases hb with ⟨ch', hch', hitem⟩ | ⟨c, hc⟩
  · rw [h.channel_eq] at hch'
    obtain rfl := Option.some.inj hch'
    have hbalance := h.balance b
    have hpos := List.count_pos_iff.mpr hitem
    omega
  · exact h.held_pos hc

/-- A consumer's action leaves what is in the buffers. -/
theorem consume_frame [DecidableEq C] (h : s.Linked P pool ch) {c : C} {action : ConsumerAction}
    (hc : action.Owned s c) (hs : consume P c s action = some s') : s'.frame b = s.frame b := by
  cases action with
  | retain =>
      simp only [consume, h.channel_eq, Option.map_some] at hs
      obtain rfl := Option.some.inj hs
      split <;> rfl
  | release =>
      have hsum := sum_owned_sub h.refs_finite hc
      have hreferences := h.references
      have hnot : ch.referenceCount ≠ 1 := by omega
      have hfirst : (channelFetchSub P ch).1 = ch.referenceCount := rfl
      simp only [consume, h.channel_eq, Option.map_some, sysChannelRelease, hfirst, h.fetchSub]
        at hs
      rw [if_pos hnot] at hs
      obtain rfl := Option.some.inj hs
      rfl
  | receive timeoutMs ret =>
      simp only [consume, h.channel_eq, Option.map_some] at hs
      obtain rfl := Option.some.inj hs
      split <;> rfl
  | bufferRetain buffer =>
      obtain ⟨hb, -⟩ := hc
      simp only [consume, dif_pos hb, h.pool_eq, Option.map_some] at hs
      have hcontent : content (sysBufferRetain P (some ⟨buffer, hb⟩) pool).2 b = content pool b :=
        congrFun (content_retain _) b
      obtain rfl := Option.some.inj hs
      rw [h.frame_eq]
      split
      · exact congrArg some hcontent
      · exact congrArg some hcontent
  | bufferRelease buffer =>
      obtain ⟨hb, -⟩ := hc
      simp only [consume, dif_pos hb, h.pool_eq, Option.map_some] at hs
      have hcontent : content (sysBufferRelease P (some ⟨buffer, hb⟩) pool) b = content pool b :=
        congrFun (content_release _) b
      obtain rfl := Option.some.inj hs
      rw [h.frame_eq]
      exact congrArg some hcontent

/-- The producer writes into a buffer that nobody refers to. -/
theorem cameraProducer_frame (h : s.Linked P pool ch) (hb : s.Shares b) {timestamp : UInt64}
    {x : Stream C n × Frames} (hs : cameraProducer P timestamp s f = some x) :
    x.1.frame b = s.frame b := by
  cases hp : s.thread with
  | none =>
      rw [cameraProducer, hp] at hs
      cases hs
  | some p =>
      rw [cameraProducer, hp] at hs
      have hs : producerSection P timestamp s f p = some x := hs
      have hrelease : ∀ b', (Stream.frame { s with
          pool := s.pool.map (sysBufferRelease P (some b')) } b) = s.frame b := by
        intro b'
        simp only [Stream.frame, h.pool_eq, Option.map_some]
        rw [content_release]
      cases hloop : p.loop with
      | condition =>
          simp only [producerSection, hloop] at hs
          obtain rfl := Option.some.inj hs
          rfl
      | acquire =>
          simp only [producerSection, hloop, h.pool_eq] at hs
          rcases sysBufferAcquire_result P true pool with ⟨b', pool', heq⟩ | ⟨ret, heq⟩
          · rw [heq] at hs
            obtain rfl := Option.some.inj hs
            obtain ⟨hzero, hothers⟩ := content_acquire heq
            have hne : b ≠ b' := by
              rintro rfl
              exact h.count_pos hb hzero
            rw [h.frame_eq]
            show (s.fill f pool' b' timestamp).1.frame b = _
            unfold Stream.fill
            dsimp only
            split
            · exact congrArg some (hothers b hne)
            · split
              · exact congrArg some (hothers b hne)
              · exact congrArg some ((content_describe hne).trans (hothers b hne))
          · rw [heq] at hs
            obtain rfl := Option.some.inj hs
            exact h.frame_eq.symm
      | send b' =>
          have hatt : ¬ s.attached = false := by simp [h.attached]
          simp only [producerSection, hloop, if_neg hatt, h.pool_eq] at hs
          have hcontent : content (sysBufferRetain P (some b') pool).2 b = content pool b :=
            congrFun (content_retain _) b
          rw [h.frame_eq]
          split at hs
          · obtain rfl := Option.some.inj hs
            exact congrArg some hcontent
          · obtain rfl := Option.some.inj hs
            exact congrArg some hcontent
      | locked b' =>
          simp only [producerSection, hloop, h.channel_eq] at hs
          split at hs
          · obtain rfl := Option.some.inj hs
            rfl
          · cases hs
      | unwind b' ret releases =>
          cases releases with
          | nil =>
              simp only [producerSection, hloop, Stream.sendReturned] at hs
              obtain rfl := Option.some.inj hs
              rfl
          | cons x rest =>
              simp only [producerSection, hloop] at hs
              obtain rfl := Option.some.inj hs
              exact hrelease x
      | release b' leaves =>
          simp only [producerSection, hloop] at hs
          obtain rfl := Option.some.inj hs
          exact hrelease b'
      | exited =>
          simp only [producerSection, hloop] at hs
          cases hs

end Frames

/-- Those of the buffer with an index, if there is one. -/
def Globals.frameIn (g : Globals C) (buffer : Nat) : Option Buffer :=
  if h : buffer < g.blocks then g.stream.frame ⟨buffer, h⟩ else none

/-- The buffer with an index is queued or with a consumer. -/
def System.Shares (s : System T C) (buffer : Nat) : Prop :=
  ∃ h : buffer < s.camera.blocks, s.camera.stream.Shares ⟨buffer, h⟩

section Sections

variable {g : Globals C} {buffer : Nat}

theorem content_releaseQueue {ch : SysChannel n} (pool : Pool n) :
    content (releaseQueue P ch pool) = content pool := by
  unfold releaseQueue
  induction List.range ch.count generalizing pool with
  | nil => rfl
  | cons i rest ih =>
      rw [List.foldl_cons, ih]
      exact content_release _

theorem releaseChannel_frameIn (g : Globals C) :
    (g.releaseChannel P).frameIn buffer = g.frameIn buffer := by
  unfold Globals.releaseChannel
  split
  · rfl
  · cases hch : g.stream.channel with
    | none => rfl
    | some ch =>
        by_cases hlast : (channelFetchSub P ch).1 ≠ 1
        · have heq : sysChannelRelease P ch g.stream.pool =
              (some (channelFetchSub P ch).2, g.stream.pool) := if_pos hlast
          simp only [heq]
          rfl
        · have heq : sysChannelRelease P ch g.stream.pool =
              (none, g.stream.pool.map (releaseQueue P (channelFetchSub P ch).2)) := if_neg hlast
          have hframe : ∀ b, (g.stream.pool.map (releaseQueue P (channelFetchSub P ch).2)).map
              (fun pool => content pool b) = g.stream.frame b := by
            intro b
            rw [Option.map_map]
            unfold Stream.frame
            congr 1
            funext pool
            exact congrFun (content_releaseQueue pool) b
          simp only [heq]
          by_cases hb : buffer < g.blocks
          · have hleft : g.frameIn buffer = g.stream.frame ⟨buffer, hb⟩ := dif_pos hb
            rw [hleft, ← hframe]
            exact dif_pos hb
          · have hleft : g.frameIn buffer = none := dif_neg hb
            rw [hleft]
            exact dif_neg hb

/-- A section of a call on a stream that is up leaves what is in the buffers. -/
theorem proceed_frameIn {st : CallState C} {x : CallState C × Globals C}
    (hholds : st.Holds P g) (hlive : ¬ g.stream.Down) (hs : proceed P g st = some x) :
    x.2.frameIn buffer = g.frameIn buffer := by
  cases st with
  | starting event pending firstError =>
      cases pending with
      | nil =>
          simp only [proceed] at hs
          split at hs
          · obtain rfl := Option.some.inj hs
            rfl
          · obtain rfl := Option.some.inj hs
            rfl
      | cons c rest => cases hs
  | teardown t event stage =>
      cases stage with
      | mark =>
          obtain rfl := Option.some.inj hs
          rfl
      | silence =>
          obtain rfl := Option.some.inj hs
          rfl
      | requestStop =>
          obtain rfl := Option.some.inj hs
          rfl
      | close =>
          obtain rfl := Option.some.inj hs
          show g.closeChannel.frameIn buffer = _
          unfold Globals.closeChannel
          split <;> rfl
      | join =>
          simp only [proceed, teardownSection] at hs
          split at hs
          · obtain rfl := Option.some.inj hs
            rfl
          · split at hs
            · obtain rfl := Option.some.inj hs
              rfl
            · cases hs
      | joinFailed ret => exact hholds.elim
      | publish => cases hs
      | notify pending firstError =>
          cases pending with
          | nil =>
              obtain rfl := Option.some.inj hs
              rfl
          | cons c rest => cases hs
      | release eventRet =>
          obtain rfl := Option.some.inj hs
          exact releaseChannel_frameIn g
      | wait eventRet =>
          have hd := hholds.2.2
          exact absurd ⟨hd.thread, hd.channel, hd.free⟩ hlive
      | waiting eventRet => cases hs
      | destroy eventRet =>
          have hd := hholds.2.2
          exact absurd ⟨hd.thread, hd.channel, hd.free⟩ hlive
      | settle eventRet poolRet =>
          have hd := hholds.2.2.1
          exact absurd ⟨hd.thread, hd.channel, hd.free⟩ hlive
  | _ => cases hs

end Sections

section Runs

variable {s s' : System T C} {buffer : Nat}

theorem Stream.Down.not_shares {s : Stream C n} {b : Fin n} (h : s.Down) : ¬ s.Shares b := by
  rintro (⟨ch, hch, -⟩ | ⟨c, hc⟩)
  · rw [h.channel] at hch
    cases hch
  · rw [(h.free c).2 b] at hc
    exact Nat.lt_irrefl 0 hc

theorem start_frameIn (hown : s.Owned P) (hdown : ¬ s.camera.stream.Down) {k : Caller T}
    {env : CreateEnv} {x : CallState C × Globals C}
    (hx : startSection P env s.camera (s.calls k) = some x) : x.2 = s.camera := by
  have hstate : s.camera.state ≠ .stopped := by
    rcases hown.cases with ⟨hidle | hup, -⟩ | ⟨k₀, hk₀⟩
    · have hgone := hidle.gone
      exact absurd ⟨hgone.thread, hgone.channel, hgone.free⟩ hdown
    · simp [hup.state]
    · rcases (hown.active hk₀).1.busy hk₀ with hstate | hstate
      · simp [hstate]
      · simp [hstate]
  cases hk : s.calls k with
  | entered request =>
      cases request with
      | stop => simp [startSection, hk] at hx
      | start config =>
          simp only [startSection, hk] at hx
          obtain ⟨ret, -, heq⟩ := cameraRealStart_refuses (P := P) hstate config env
          rw [heq] at hx
          obtain rfl := Option.some.inj hx
          rfl
  | _ => simp [startSection, hk] at hx

variable [DecidableEq T] [DecidableEq C] {e : Event T C}

/-- A step leaves what is in a shared buffer. -/
theorem step_frameIn (hown : s.Owned P) (hshares : s.Shares buffer)
    (hstep : (cameraMachine T C P).step s e s') :
    s'.camera.frameIn buffer = s.camera.frameIn buffer := by
  obtain ⟨hlt, hb⟩ := hshares
  have hdown : ¬ s.camera.stream.Down := fun hd => hd.not_shares hb
  obtain ⟨pool, ch, hl⟩ := hown.live_or_down.resolve_right hdown
  have hin : ∀ {stream : Stream C s.camera.blocks} {frames : Frames},
      stream.frame ⟨buffer, hlt⟩ = s.camera.stream.frame ⟨buffer, hlt⟩ →
      Globals.frameIn { s.camera with stream := stream, frames := frames } buffer =
        s.camera.frameIn buffer := by
    intro stream frames heq
    have hleft : s.camera.frameIn buffer = s.camera.stream.frame ⟨buffer, hlt⟩ := dif_pos hlt
    rw [hleft, ← heq]
    exact dif_pos hlt
  obtain ⟨hnext, hcontract⟩ := hstep
  cases next_cases hnext with
  | start hx =>
      have hsame := start_frameIn hown hdown hx
      show Globals.frameIn _ buffer = _
      rw [System.after, System.setCall, hsame]
  | @stop k x hx =>
      have hsame : x.2.frameIn buffer = s.camera.frameIn buffer := by
        cases hk : s.calls k with
        | entered request =>
            cases request with
            | start config => simp [stopSection, hk] at hx
            | stop =>
                simp only [stopSection, hk] at hx
                rcases hown.cases with ⟨hidle | hup, -⟩ | ⟨k₀, hk₀⟩
                · rw [hidle.realStop] at hx
                  obtain rfl := Option.some.inj hx
                  rfl
                · rw [hup.realStop] at hx
                  obtain rfl := Option.some.inj hx
                  rfl
                · rw [cameraRealStop_refuses ((hown.active hk₀).1.busy hk₀)] at hx
                  obtain rfl := Option.some.inj hx
                  rfl
        | _ => simp [stopSection, hk] at hx
      exact hsame
  | @publish k subscribers x hx =>
      have hsame : x.2.frameIn buffer = s.camera.frameIn buffer := by
        cases hk : s.calls k with
        | created event =>
            rw [hk] at hx
            obtain rfl := Option.some.inj hx
            rfl
        | teardown t event stage =>
            cases stage with
            | publish =>
                rw [hk] at hx
                obtain rfl := Option.some.inj hx
                rfl
            | _ => simp [Camera.publish, hk] at hx
        | _ => simp [Camera.publish, hk] at hx
      exact hsame
  | proceed hx => exact proceed_frameIn (hown.active (proceed_active hx)).1 hdown hx
  | @wake k ret x hx =>
      have hholds := (hown.active (wake_active hx)).1
      generalize s.calls k = st at hx hholds
      cases st with
      | teardown t event stage =>
          cases stage with
          | waiting eventRet => exact hholds.elim
          | _ => cases hx
      | _ => cases hx
  | producer hx => exact hin (cameraProducer_frame hl hb hx)
  | consumer hx =>
      obtain ⟨k, -, hothers⟩ := id hown
      obtain ⟨-, howned⟩ := contract_consumer hothers hcontract
      exact hin (consume_frame hl howned hx)
  | _ => rfl

/-- The runs in which a buffer stays queued or with a consumer. -/
def sharingMachine (T C : Type*) [DecidableEq T] [DecidableEq C] (P : Platform) (buffer : Nat) :
    Machine (System T C) (Event T C) :=
  (Machine.ofNext System.Fresh (next P)).restrict fun s e _ => Contract s e ∧ s.Shares buffer

/-- From the moment a frame is queued until the last consumer has given it up, whatever the
    producer and the others do, the size, the timestamp and the labels of its buffer do not
    change. -/
theorem shared_frame_stays (hP : 0 < P.uintMax) {es : List (Event T C)}
    (h : (cameraMachine T C P).Reachable s) (hrun : (sharingMachine T C P buffer).Run s es s') :
    s'.camera.frameIn buffer = s.camera.frameIn buffer := by
  have hboth := hrun.invariant (I := fun t => (cameraMachine T C P).Reachable t ∧
      t.camera.frameIn buffer = s.camera.frameIn buffer) (fun u e v hu hstep => ?_) ⟨h, rfl⟩
  · exact hboth.2
  · obtain ⟨hnext, hcontract, hshares⟩ := hstep
    have hstep : (cameraMachine T C P).step u e v := ⟨hnext, hcontract⟩
    refine ⟨hu.1.step hstep, ?_⟩
    rw [step_frameIn (owned_of_reachable hP hu.1) hshares hstep]
    exact hu.2

end Runs

instance (s : Stream C n) (b : Fin n) [Fintype C] : Decidable (s.Shares b) :=
  inferInstanceAs (Decidable ((∃ ch ∈ s.channel, b ∈ ch.items) ∨ ∃ c, 0 < s.held c b))

instance (s : System T C) (buffer : Nat) [Fintype C] : Decidable (s.Shares buffer) :=
  inferInstanceAs (Decidable (∃ h : buffer < s.camera.blocks, s.camera.stream.Shares ⟨buffer, h⟩))

/-- The frame a consumer keeps while the other gives its own back and the producer goes on. -/
theorem shared_frame_stays_kept :
    ∃ s s' : System Unit Bool, s.camera.frames.sequence = 2 ∧ s'.camera.frames.sequence = 3 ∧
      s'.camera.frameIn 1 = s.camera.frameIn 1 := by
  obtain ⟨s, hexec, hrest⟩ := Option.bind_eq_some_iff.mp (show
    (Machine.execIf (next .lp64) Contract (System.initial Unit Bool) keptFrames).bind
      (fun s => (Machine.execIf (next .lp64) (fun s e => Contract s e ∧ s.Shares 1) s
        [.consumer true (.bufferRelease 0), .producer 10]).map fun s' =>
          (s.camera.frames.sequence, s'.camera.frames.sequence)) = some (2, 3) by decide)
  obtain ⟨s', hexec', hcounts⟩ := Option.map_eq_some_iff.mp hrest
  obtain ⟨htwo, hthree⟩ := Prod.mk.inj hcounts
  have hreach : (cameraMachine Unit Bool .lp64).Reachable s :=
    ⟨_, _, System.initial_fresh, Machine.Run.of_execIf hexec⟩
  exact ⟨s, s', htwo, hthree,
    shared_frame_stays (by decide) hreach (Machine.Run.of_execIf hexec')⟩

end Camera
end AppCore
