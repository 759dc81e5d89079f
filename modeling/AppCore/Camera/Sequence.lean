/-
  AppCore.Camera.Sequence

  The frames of a stream over a whole run of the camera: the consumers receive the frames
  in the order in which the producer has numbered them.
-/

import AppCore.Camera.Frames

namespace AppCore
namespace Camera

open Channel

variable {T C : Type*} {n : Nat} {P : Platform}

/-! ## The sections of a call -/

/-- The consumers have received the frames `r`, and the queue goes on from there. -/
structure Globals.Ordered (g : Globals C) (r : List Buffer) : Prop where
  received : InOrder g.frames.generation r
  queued : ∀ ch, g.stream.channel = some ch →
    ∃ pool, g.stream.pool = some pool ∧ g.stream.Ordered g.frames r pool ch

/-- A section that leaves the numbering. -/
structure Numbered (g' : Globals C) (f : Frames) (r : List Buffer) : Prop where
  frames : g'.frames = f
  ordered : g'.Ordered r

section Sections

variable {g : Globals C} {r : List Buffer}

theorem Globals.Ordered.gone (h : InOrder g.frames.generation r)
    (hchannel : g.stream.channel = none) : g.Ordered r := by
  refine ⟨h, fun ch hch => ?_⟩
  rw [hchannel] at hch
  cases hch

theorem Globals.Ordered.requestStop (h : g.Ordered r) : g.requestStop.Ordered r := by
  refine ⟨h.received, fun ch hch => ?_⟩
  obtain ⟨pool, hpool, ho⟩ := h.queued ch hch
  refine ⟨pool, hpool, ho.two_le, ho.capacity, ho.nodup, ho.inOrder, fun p hp => ?_⟩
  obtain ⟨p₀, hp₀, rfl⟩ := Option.map_eq_some_iff.mp hp
  exact (ho.producer p₀ hp₀).move rfl fun _ hb => hb

theorem Globals.Ordered.closeChannel (h : g.Ordered r) :
    Numbered g.closeChannel g.frames r := by
  unfold Globals.closeChannel
  split
  · exact ⟨rfl, h⟩
  · refine ⟨rfl, h.received, fun ch hch => ?_⟩
    obtain ⟨ch₀, hch₀, rfl⟩ := Option.map_eq_some_iff.mp hch
    obtain ⟨pool, hpool, ho⟩ := h.queued ch₀ hch₀
    exact ⟨pool, hpool, ho.beside rfl rfl rfl rfl fun b hb => hb.2⟩

theorem Globals.Ordered.join (h : g.Ordered r) :
    Globals.Ordered { g with stream := { g.stream with thread := none } } r := by
  refine ⟨h.received, fun ch hch => ?_⟩
  obtain ⟨pool, hpool, ho⟩ := h.queued ch hch
  refine ⟨pool, hpool, ho.two_le, ho.capacity, ho.nodup, ho.inOrder, fun p hp => ?_⟩
  cases hp

theorem Globals.Ordered.releaseChannel (h : g.Ordered r) :
    Numbered (g.releaseChannel P) g.frames r := by
  unfold Globals.releaseChannel
  split
  · exact ⟨rfl, h⟩
  · cases hch : g.stream.channel with
    | none => exact ⟨rfl, h⟩
    | some ch =>
        obtain ⟨pool, hpool, ho⟩ := h.queued ch hch
        by_cases hlast : (channelFetchSub P ch).1 ≠ 1
        · have heq : sysChannelRelease P ch g.stream.pool =
              (some (channelFetchSub P ch).2, g.stream.pool) := if_pos hlast
          simp only [heq]
          refine ⟨rfl, h.received, fun ch' hch' => ?_⟩
          obtain rfl := Option.some.inj hch'
          exact ⟨pool, hpool, ho.beside rfl rfl rfl rfl fun b hb => hb.2⟩
        · have heq : sysChannelRelease P ch g.stream.pool =
              (none, g.stream.pool.map (releaseQueue P (channelFetchSub P ch).2)) := if_neg hlast
          simp only [heq]
          exact ⟨rfl, Globals.Ordered.gone h.received rfl⟩

theorem Globals.Ordered.destroyPool (h : g.Ordered r) (hchannel : g.stream.channel = none) :
    Numbered g.destroyPool.2 g.frames r := by
  unfold Globals.destroyPool
  split
  · exact ⟨rfl, h⟩
  · split
    · exact ⟨rfl, h⟩
    · exact ⟨rfl, Globals.Ordered.gone h.received hchannel⟩

theorem teardownSection_ordered {t : Teardown} {event : CameraStreamEvent} {stage : Stage C}
    {x : CallState C × Globals C} (hholds : stage.Holds P g) (h : g.Ordered r)
    (hs : teardownSection P t event g stage = some x) : Numbered x.2 g.frames r := by
  cases stage with
  | mark =>
      obtain rfl := Option.some.inj hs
      exact ⟨rfl, h.received, h.queued⟩
  | silence =>
      obtain rfl := Option.some.inj hs
      exact ⟨rfl, h.received, h.queued⟩
  | requestStop =>
      obtain rfl := Option.some.inj hs
      exact ⟨rfl, h.requestStop⟩
  | close =>
      obtain rfl := Option.some.inj hs
      exact h.closeChannel
  | join =>
      simp only [teardownSection] at hs
      split at hs
      · obtain rfl := Option.some.inj hs
        exact ⟨rfl, h⟩
      · split at hs
        · obtain rfl := Option.some.inj hs
          have hjoin := h.join
          exact ⟨rfl, hjoin.received, hjoin.queued⟩
        · cases hs
  | joinFailed ret => exact hholds.elim
  | publish => cases hs
  | notify pending firstError =>
      cases pending with
      | nil =>
          obtain rfl := Option.some.inj hs
          exact ⟨rfl, h⟩
      | cons c rest => cases hs
  | release eventRet =>
      obtain rfl := Option.some.inj hs
      exact h.releaseChannel
  | wait eventRet =>
      have hsame : x.2 = g := by
        simp only [teardownSection] at hs
        split at hs
        · obtain rfl := Option.some.inj hs
          rfl
        · split at hs
          · obtain rfl := Option.some.inj hs
            rfl
          · obtain rfl := Option.some.inj hs
            rfl
          · obtain rfl := Option.some.inj hs
            rfl
      rw [hsame]
      exact ⟨rfl, h⟩
  | waiting eventRet => cases hs
  | destroy eventRet =>
      obtain rfl := Option.some.inj hs
      exact h.destroyPool hholds.2.2.channel
  | settle eventRet poolRet =>
      obtain rfl := Option.some.inj hs
      exact ⟨rfl, h.received, h.queued⟩

theorem proceed_ordered {st : CallState C} {x : CallState C × Globals C}
    (hholds : st.Holds P g) (h : g.Ordered r) (hs : proceed P g st = some x) :
    Numbered x.2 g.frames r := by
  cases st with
  | starting event pending firstError =>
      cases pending with
      | nil =>
          simp only [proceed] at hs
          split at hs
          · obtain rfl := Option.some.inj hs
            exact ⟨rfl, h⟩
          · obtain rfl := Option.some.inj hs
            exact ⟨rfl, h.received, h.queued⟩
      | cons c rest => cases hs
  | teardown t event stage => exact teardownSection_ordered hholds h hs
  | _ => cases hs

theorem publish_ordered {subscribers : Option (List C)} {st : CallState C}
    {x : CallState C × Globals C} (h : g.Ordered r) (hs : publish subscribers g st = some x) :
    Numbered x.2 g.frames r := by
  cases st with
  | created event =>
      obtain rfl := Option.some.inj hs
      exact ⟨rfl, h.received, h.queued⟩
  | teardown t event stage =>
      cases stage with
      | publish =>
          obtain rfl := Option.some.inj hs
          exact ⟨rfl, h.received, h.queued⟩
      | _ => cases hs
  | _ => cases hs

/-! ## Starting a stream -/

/-- What the creation of a stream does to the numbering. -/
inductive Begins (g : Globals C) (bufferCount : Nat) : SysErr × Globals C → Prop
  | failed {ret left} : ret ≠ .ok →
      left.frames = g.frames ∨ left.frames.generation = g.frames.generation + 1 →
      Begins g bufferCount (ret, left)
  | created {left pool ch} : left.blocks = bufferCount →
      left.frames.generation = g.frames.generation + 1 → left.frames.sequence = 0 →
      left.stream.thread = some {} → left.stream.pool = some pool →
      left.stream.channel = some ch → ch.items = [] → ch.capacity = left.blocks →
      left.stream.refs = (fun _ => 0) → left.stream.held = (fun _ _ => 0) →
      Begins g bufferCount (.ok, left)

theorem cleanup_frames (g : Globals C) : (cleanupStreamResources P g).2.frames = g.frames := by
  have hrelease : (g.releaseChannel P).frames = g.frames := by
    unfold Globals.releaseChannel
    split
    · rfl
    · split
      · rfl
      · dsimp only
        split <;> rfl
  rw [cleanupStreamResources, ← hrelease]
  generalize g.releaseChannel P = left
  unfold Globals.cleanupPool
  split
  · rfl
  · split
    · unfold Globals.destroyPool
      split
      · rfl
      · split <;> rfl
    · rfl
    · rfl

theorem createStreamResources_begins (config : CameraStreamConfig) (frameCapacity : Nat)
    (env : CreateEnv) (g : Globals C) :
    Begins g config.bufferCount (createStreamResources P config frameCapacity env g) := by
  unfold createStreamResources
  rcases sysBufferPoolCreate_result P config.bufferCount frameCapacity true env.pool.error with
    ⟨pool, hpool⟩ | ⟨ret, hret, hpool⟩
  · rw [hpool]
    show Begins g _ (createChannel P config env _)
    unfold createChannel sysChannelCreate
    rcases sysChannelCreateWithConfig_spec (n := config.bufferCount) P
        (some ⟨config.bufferCount, fullFail⟩) true env.channel.error with
      ⟨ch, config', hconfig, hchannel, -, hfifo, -⟩ | ⟨ret, hret, hchannel⟩
    · obtain rfl := Option.some.inj hconfig
      have hitems : ch.items = [] := congrArg Fifo.State.items hfifo
      have hcapacity : ch.capacity = config.bufferCount := congrArg Fifo.State.capacity hfifo
      simp only [Globals.log, hchannel]
      show Begins g _ (createThread P config env _)
      unfold createThread
      dsimp only
      split
      · rename_i hthread
        refine .failed hthread (Or.inr ?_)
        rw [cleanup_frames]
      · exact .created rfl rfl rfl rfl rfl rfl hitems hcapacity rfl rfl
    · simp only [Globals.log, hchannel]
      rw [if_pos hret]
      refine .failed hret (Or.inl ?_)
      rw [cleanup_frames]
  · rw [hpool]
    dsimp only
    rw [if_pos hret]
    refine .failed hret (Or.inl ?_)
    rw [cleanup_frames]

/-- A configuration with a frame capacity has two buffers at least. -/
theorem two_le_of_capacity {config : CameraStreamConfig} {frameCapacity : Nat}
    (h : calculateFrameCapacity P (some config) = .ok frameCapacity) : 2 ≤ config.bufferCount := by
  simp only [calculateFrameCapacity] at h
  split at h
  · cases h
  · rename_i hok
    omega

/-- The frames that the consumers have received when the numbering is `f` after `g`. -/
def restarted (g f : Frames) (r : List Buffer) : List Buffer :=
  if f.generation ≠ g.generation then [] else r

theorem restarted_same {f : Frames} (r : List Buffer) : restarted f f r = r :=
  if_neg (not_not_intro rfl)

theorem restarted_next {g f : Frames} (h : f.generation = g.generation + 1) (r : List Buffer) :
    restarted g f r = [] := by
  apply if_pos
  rw [h]
  intro heq
  simp at heq

/-- A start that finds the camera idle numbers its frames from zero. -/
theorem cameraRealStart_ordered (hP : 0 < P.uintMax) (hidle : g.Idle) (h : g.Ordered r)
    (config : Option CameraStreamConfig) (env : CreateEnv) :
    (cameraRealStart P config env g).2.Ordered
      (restarted g.frames (cameraRealStart P config env g).2.frames r) := by
  have hchannel : g.stream.channel = none := hidle.gone.channel
  rcases cameraRealStart_cases (P := P) config env g with heq |
    ⟨config', frameCapacity, rfl, hcapacity, heq⟩
  · rw [heq, restarted_same]
    exact h
  · have hstarts : Starts P g.trace (startLocked P config' frameCapacity env g) :=
      startLocked_starts hP hidle frameCapacity
    have hbegins := createStreamResources_begins (P := P) config' frameCapacity env
      { g with state := .starting }
    have hfree : ¬ (g.state ≠ .stopped ∨ g.stream.pool.isSome = true) := by
      simp [hidle.state, hidle.gone.pool]
    rw [heq]
    unfold startLocked at hstarts ⊢
    rw [if_neg hfree] at hstarts ⊢
    generalize createStreamResources P config' frameCapacity env { g with state := .starting } = x
      at hstarts hbegins ⊢
    cases hbegins with
    | @failed ret left hret hframes =>
        dsimp only at hstarts ⊢
        rw [if_pos hret] at hstarts ⊢
        have hgone : left.stream.channel = none := by
          cases hstarts with
          | failed _ hleft => exact hleft.gone.channel
        refine Globals.Ordered.gone ?_ hgone
        rcases hframes with hsame | hnext
        · have hsame : left.frames = g.frames := hsame
          show InOrder left.frames.generation (restarted g.frames left.frames r)
          rw [hsame, restarted_same]
          exact h.received
        · show InOrder left.frames.generation (restarted g.frames left.frames r)
          rw [restarted_next hnext]
          exact InOrder.nil
    | @created left pool ch hblocks hnext hsequence hthread hpool hch hitems hcap =>
        dsimp only
        rw [if_neg (not_not_intro rfl)]
        dsimp only
        rw [restarted_next hnext]
        refine ⟨InOrder.nil, fun ch' hch' => ?_⟩
        rw [hch] at hch'
        obtain rfl := Option.some.inj hch'
        refine ⟨pool, hpool, ?_, hcap, ?_, ?_, fun p hp => ?_⟩
        · rw [hblocks]
          exact two_le_of_capacity hcapacity
        · rw [hitems]
          exact List.nodup_nil
        · rw [hitems]
          exact InOrder.nil
        · rw [hthread] at hp
          obtain rfl := Option.some.inj hp
          rw [hitems]
          exact hsequence

end Sections

/-! ## Whole runs -/

/-- The frame that a step hands to a consumer. -/
def handed (P : Platform) (s : System T C) : Event T C → List Buffer
  | .consumer _ action => s.camera.stream.handed P action
  | _ => []

/-- The frames that the consumers have received, whoever of them, since the number of the
    stream was last raised. -/
def received (P : Platform) (p : List (System T C × Event T C × System T C)) : List Buffer :=
  p.foldl (fun r x => restarted x.1.camera.frames x.2.2.camera.frames (r ++ handed P x.1 x.2.1)) []

section Runs

variable {s s' : System T C} {r : List Buffer}

/-- A stream that is not up has nobody who could do something. -/
structure Stream.Down (s : Stream C n) : Prop where
  thread : s.thread = none
  channel : s.channel = none
  free : ∀ c, s.Free c

theorem System.Owned.live_or_down (h : s.Owned P) :
    s.camera.stream.Live P ∨ s.camera.stream.Down := by
  have hgone : s.camera.stream.Gone → s.camera.stream.Down :=
    fun hg => ⟨hg.thread, hg.channel, hg.free⟩
  have hdrained : s.camera.stream.Drained P → s.camera.stream.Down :=
    fun hd => ⟨hd.thread, hd.channel, hd.free⟩
  have hrest : s.camera.Rest P → s.camera.stream.Live P ∨ s.camera.stream.Down := by
    rintro (hidle | hup)
    · exact Or.inr (hgone hidle.gone)
    · exact Or.inl hup.live
  obtain ⟨k, hholds, -⟩ := h
  generalize s.calls k = st at hholds
  cases st with
  | created event => exact Or.inl hholds.live
  | starting event pending firstError => exact Or.inl hholds.live
  | teardown t event stage =>
      cases stage with
      | mark => exact Or.inl hholds.live
      | silence => exact Or.inl hholds.live
      | requestStop => exact Or.inl hholds.1.live
      | close => exact Or.inl hholds.1.live
      | join => exact Or.inl hholds.1.live
      | joinFailed ret => exact hholds.elim
      | publish => exact Or.inl hholds.live
      | notify pending firstError => exact Or.inl hholds.1.live
      | release eventRet => exact Or.inl hholds.1.live
      | wait eventRet => exact Or.inr (hdrained hholds.2.2)
      | waiting eventRet => exact hholds.elim
      | destroy eventRet => exact Or.inr (hdrained hholds.2.2)
      | settle eventRet poolRet => exact Or.inr (hgone hholds.2.2.1)
  | _ => exact hrest hholds

/-- The producer and the consumers find the stream up. -/
theorem System.Owned.live_of_producer (h : s.Owned P) {timestamp : UInt64}
    {x : Stream C s.camera.blocks × Frames}
    (hx : cameraProducer P timestamp s.camera.stream s.camera.frames = some x) :
    s.camera.stream.Live P := by
  refine h.live_or_down.resolve_right fun hdown => ?_
  rw [cameraProducer, hdown.thread] at hx
  cases hx

theorem System.Owned.live_of_consumer [DecidableEq C] (h : s.Owned P) {c : C}
    {action : ConsumerAction} {stream : Stream C s.camera.blocks}
    (howned : action.Owned s.camera.stream c)
    (hx : consume P c s.camera.stream action = some stream) : s.camera.stream.Live P := by
  refine h.live_or_down.resolve_right fun hdown => ?_
  obtain ⟨hrefs, hheld⟩ := hdown.free c
  cases action with
  | retain => simp [consume, hdown.channel] at hx
  | release =>
      rw [ConsumerAction.Owned, hrefs] at howned
      exact Nat.lt_irrefl 0 howned
  | receive timeoutMs ret => simp [consume, hdown.channel] at hx
  | bufferRetain buffer =>
      obtain ⟨hb, hpos⟩ := howned
      rw [hheld] at hpos
      exact Nat.lt_irrefl 0 hpos
  | bufferRelease buffer =>
      obtain ⟨hb, hpos⟩ := howned
      rw [hheld] at hpos
      exact Nat.lt_irrefl 0 hpos

/-- A section of the producer or of a consumer. -/
theorem OrderedAfter.restarted {g : Globals C} {stream : Stream C g.blocks} {f : Frames}
    (h : OrderedAfter stream g.frames f r) :
    Globals.Ordered { g with stream := stream, frames := f } (restarted g.frames f r) := by
  have hsame : Camera.restarted g.frames f r = r := by
    rw [Camera.restarted, h.generation, if_neg (not_not_intro rfl)]
  obtain ⟨pool, ch, hpool, hch, ho⟩ := h.ordered
  rw [hsame]
  refine ⟨fun i b hi => ho.inOrder.left i b hi, fun ch' hch' => ?_⟩
  obtain rfl := Option.some.inj (hch.symm.trans hch')
  exact ⟨pool, hpool, ho⟩

theorem Numbered.restarted {g : Globals C} {f : Frames} (h : Numbered g f r) :
    g.Ordered (restarted f g.frames (r ++ [])) := by
  rw [h.frames, restarted_same, List.append_nil]
  exact h.ordered

theorem start_ordered (hP : 0 < P.uintMax) (hown : s.Owned P) (h : s.camera.Ordered r)
    {k : Caller T} {env : CreateEnv} {x : CallState C × Globals C}
    (hx : startSection P env s.camera (s.calls k) = some x) :
    x.2.Ordered (restarted s.camera.frames x.2.frames r) := by
  cases hk : s.calls k with
  | entered request =>
      cases request with
      | stop => simp [startSection, hk] at hx
      | start config =>
          simp only [startSection, hk] at hx
          have hleft : x.2 = (cameraRealStart P config env s.camera).2 := by
            split at hx
            · rename_i heq
              obtain rfl := Option.some.inj hx
              rw [heq]
            · rename_i heq
              obtain rfl := Option.some.inj hx
              rw [heq]
          rw [hleft]
          have hrefused : s.camera.state ≠ .stopped →
              (cameraRealStart P config env s.camera).2.Ordered
              (restarted s.camera.frames (cameraRealStart P config env s.camera).2.frames r) := by
            intro hstate
            obtain ⟨ret, -, heq⟩ := cameraRealStart_refuses (P := P) hstate config env
            rw [heq, restarted_same]
            exact h
          rcases hown.cases with ⟨hidle | hup, -⟩ | ⟨k₀, hk₀⟩
          · exact cameraRealStart_ordered hP hidle h config env
          · apply hrefused
            simp [hup.state]
          · apply hrefused
            rcases (hown.active hk₀).1.busy hk₀ with hstate | hstate
            · simp [hstate]
            · simp [hstate]
  | _ => simp [startSection, hk] at hx

theorem stop_ordered (h : s.camera.Ordered r) {k : Caller T} {x : CallState C × Globals C}
    (hx : stopSection s.camera (s.calls k) = some x) : Numbered x.2 s.camera.frames r := by
  cases hk : s.calls k with
  | entered request =>
      cases request with
      | start config => simp [stopSection, hk] at hx
      | stop =>
          simp only [stopSection, hk, cameraRealStop] at hx
          split at hx
          · rename_i heq
            obtain rfl := Option.some.inj hx
            split at heq
            · obtain ⟨-, rfl⟩ := Prod.mk.inj heq
              exact ⟨rfl, h⟩
            · split at heq
              · obtain ⟨-, rfl⟩ := Prod.mk.inj heq
                exact ⟨rfl, h⟩
              · cases heq
          · rename_i heq
            obtain rfl := Option.some.inj hx
            split at heq
            · cases heq
            · split at heq
              · cases heq
              · obtain ⟨-, rfl⟩ := Prod.mk.inj heq
                exact ⟨rfl, h.received, h.queued⟩
  | _ => simp [stopSection, hk] at hx

variable [DecidableEq T]

/-- A section of a call that is past the mutex. -/
theorem section_ordered (hown : s.Owned P) {k : Caller T} {x : CallState C × Globals C}
    (hactive : (s.calls k).Active)
    (hsection : (s.calls k).Holds P s.camera → Numbered x.2 s.camera.frames r) :
    (s.after k x).camera.Ordered
      (restarted s.camera.frames (s.after k x).camera.frames (r ++ [])) :=
  (hsection (hown.active hactive).1).restarted

variable [DecidableEq C] {e : Event T C} {p : List (System T C × Event T C × System T C)}

/-- The numbering of the frames, step by step. -/
theorem step_ordered (hP : 0 < P.uintMax) (hown : s.Owned P) (h : s.camera.Ordered r)
    (hstep : (cameraMachine T C P).step s e s') :
    s'.camera.Ordered (restarted s.camera.frames s'.camera.frames (r ++ handed P s e)) := by
  have hsame : ∀ {g : Globals C}, g = s.camera →
      g.Ordered (restarted s.camera.frames g.frames (r ++ [])) := by
    rintro g rfl
    exact Numbered.restarted ⟨rfl, h⟩
  obtain ⟨hnext, hcontract⟩ := hstep
  cases next_cases hnext with
  | start hx =>
      show Globals.Ordered _ (restarted _ _ (r ++ []))
      rw [List.append_nil]
      exact start_ordered hP hown h hx
  | stop hx => exact (stop_ordered h hx).restarted
  | publish hx =>
      exact section_ordered hown (publish_active hx) fun _ => publish_ordered h hx
  | proceed hx =>
      exact section_ordered hown (proceed_active hx) fun hholds => proceed_ordered hholds h hx
  | @wake k ret x hx =>
      refine section_ordered hown (wake_active hx) fun hholds => ?_
      generalize s.calls k = st at hx hholds
      cases st with
      | teardown t event stage =>
          cases stage with
          | waiting eventRet => exact hholds.elim
          | _ => cases hx
      | _ => cases hx
  | @producer timestamp x hx =>
      obtain ⟨pool, ch, hl⟩ := hown.live_of_producer hx
      obtain ⟨pool', hpool, ho⟩ := h.queued ch hl.channel_eq
      obtain rfl := Option.some.inj (hl.pool_eq.symm.trans hpool)
      show Globals.Ordered _ (restarted _ _ (r ++ []))
      rw [List.append_nil]
      exact (cameraProducer_ordered hl ho hx).restarted
  | @consumer c action stream hx =>
      obtain ⟨k, -, hothers⟩ := id hown
      obtain ⟨-, howned⟩ := contract_consumer hothers hcontract
      obtain ⟨pool, ch, hl⟩ := hown.live_of_consumer howned hx
      obtain ⟨pool', hpool, ho⟩ := h.queued ch hl.channel_eq
      obtain rfl := Option.some.inj (hl.pool_eq.symm.trans hpool)
      exact (consume_ordered hl ho howned hx).restarted
  | _ => exact hsame rfl

omit [DecidableEq T] [DecidableEq C] in
theorem System.Fresh.ordered (h : s.Fresh) : s.camera.Ordered [] :=
  Globals.Ordered.gone InOrder.nil h.gone.channel

/-- The numbering of the frames after a whole run. -/
theorem path_ordered (hP : 0 < P.uintMax) (h : (cameraMachine T C P).Path p s) :
    s.camera.Ordered (received P p) := by
  refine h.invariant (I := fun p s => s.camera.Ordered (received P p))
    (fun _ (hfresh : System.Fresh _) => hfresh.ordered) fun p u e v hpath ho hstep => ?_
  have hordered := step_ordered hP (owned_of_reachable hP hpath.reachable) ho hstep
  rw [received, List.foldl_append]
  exact hordered

end Runs

/-! ## The frames of a stream -/

section Stream

variable [DecidableEq T] [DecidableEq C] {s s' : System T C} {e : Event T C}
  {p : List (System T C × Event T C × System T C)}

/-- The consumers have received the frames `r`, the queue holds the frames after them, and the
    producer will write the one after those. -/
structure InSequence (g : Globals C) (r : List Buffer) : Prop where
  received : ∀ i b, r[i]? = some b → IsFrame g.frames.generation i b
  queued : ∀ pool ch, g.stream.pool = some pool → g.stream.channel = some ch →
    ∀ j b, ch.items[j]? = some b →
      IsFrame g.frames.generation (r.length + j) (pool.buffers b)
  next : ∀ ch p, g.stream.channel = some ch → g.stream.thread = some p →
    p.loop = .condition ∨ p.loop = .acquire →
      g.frames.sequence = UInt64.ofNat (r.length + ch.items.length)

/-- In every run, with any number of consumers, the frame that is received `i`-th in a stream is
    frame `i` of that stream. -/
theorem frames_in_sequence (hP : 0 < P.uintMax) (h : (cameraMachine T C P).Path p s) :
    InSequence s.camera (received P p) := by
  have hordered := path_ordered hP h
  refine ⟨hordered.received, fun pool ch hpool hch j b hj => ?_, fun ch p hch hp hloop => ?_⟩
  · obtain ⟨pool', hpool', ho⟩ := hordered.queued ch hch
    obtain rfl := Option.some.inj (hpool.symm.trans hpool')
    have hframe : IsFrame s.camera.frames.generation ((received P p).length + j)
        (content pool b) := by
      apply ho.inOrder
      rw [List.getElem?_append_right (Nat.le_add_right _ _), Nat.add_sub_cancel_left,
        List.getElem?_map, hj]
      rfl
    exact ⟨hframe.size, hframe.sequence, hframe.type, hframe.version, hframe.generation⟩
  · obtain ⟨pool, -, ho⟩ := hordered.queued ch hch
    have hm := ho.producer p hp
    rcases hloop with hloop | hloop
    · rw [hloop] at hm
      exact hm
    · rw [hloop] at hm
      exact hm

/-- A stream of which two consumers receive a frame each. -/
def sharedStream : List (Event Unit Bool) :=
  [.acquire () (.start (some { fps := 30, width := 5, height := 5, bufferCount := 2 })),
    .start (.thread ()) {}, .publish (.thread ()) (some [false, true]),
    .consumer false .retain, .callbackReturned (.thread ()) .ok,
    .consumer true .retain, .callbackReturned (.thread ()) .ok, .proceed (.thread ()),
    .release (),
    .producer 7, .producer 7, .producer 7, .producer 7, .producer 7, .producer 7,
    .producer 8, .producer 8, .producer 8, .producer 8, .producer 8, .producer 8,
    .consumer true (.receive 0 0), .consumer false (.receive 0 0)]

theorem frames_in_sequence_shared :
    ∃ (p : List (System Unit Bool × Event Unit Bool × System Unit Bool))
      (s : System Unit Bool), InSequence s.camera (received .lp64 p) ∧
        (received .lp64 p).map (fun b => (b.sequence, b.timestamp)) = [(0, 7), (1, 8)] := by
  obtain ⟨⟨p, s⟩, hpath, hreceived⟩ := Option.map_eq_some_iff.mp (show
    (Machine.pathIf (next .lp64) Contract [] (System.initial Unit Bool) sharedStream).map
      (fun x => (received .lp64 x.1).map fun b => (b.sequence, b.timestamp)) =
        some [(0, 7), (1, 8)] by decide)
  refine ⟨p, s, frames_in_sequence (by decide) ?_, hreceived⟩
  exact Machine.Path.of_pathIf (.start System.initial_fresh) hpath

end Stream

end Camera
end AppCore
