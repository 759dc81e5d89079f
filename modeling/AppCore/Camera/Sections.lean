/-
  AppCore.Camera.Sections

  What the camera's own sections do: creating the objects of a stream, and giving them up.
-/

import AppCore.Camera.Consumers

namespace AppCore
namespace Camera

open Channel

variable {C : Type*} {P : Platform} {g g' : Globals C}

/-- The camera is `STOPPED` and has no resources. -/
structure Globals.Idle (g : Globals C) : Prop where
  state : g.state = .stopped
  streaming : g.streaming = false
  gone : g.stream.Gone

/-- The camera is in `state`, with a stream that is up and a producer. -/
structure Globals.Up (P : Platform) (state : CameraState) (g : Globals C) : Prop where
  state : g.state = state
  thread : g.stream.thread.isSome = true
  live : g.stream.Live P

/-! ## Giving a stream up -/

theorem idle_of_drained {n : Nat} {pool : Pool n} (hcounted : pool.Counted P)
    (hzero : ∀ b, pool.count b = 0) : pool.buffersInUse = 0 :=
  hcounted.idle_iff.mpr hzero

/-- A drained pool is idle at once. -/
theorem Stream.Drained.waitIdle (h : g.stream.Drained P) : g.waitIdle = some .ok := by
  obtain ⟨pool, hpool, hcounted, hzero⟩ := h.pool
  have hidle := idle_of_drained hcounted hzero
  rw [Globals.waitIdle, hpool]
  show waitIdleLoop 2000 pool = _
  rw [waitIdleLoop, if_neg (not_not_intro hidle)]

/-- A drained pool is destroyed, and nothing is left. -/
theorem Stream.Drained.destroyPool (h : g.stream.Drained P) :
    ∃ stream : Stream C g.blocks, stream.Gone ∧ g.destroyPool =
      (.ok,
        Globals.log { g with stream := stream } (.poolDestroyed (List.replicate g.blocks 0))) := by
  obtain ⟨pool, hpool, hcounted, hzero⟩ := h.pool
  have hidle := idle_of_drained hcounted hzero
  have hdestroy : sysBufferPoolDestroy pool = .ok := by
    rw [sysBufferPoolDestroy, if_neg (not_not_intro hidle)]
  have hcounts : (List.finRange g.blocks).map pool.count = List.replicate g.blocks 0 := by
    rw [List.map_congr_left (fun b _ => hzero b), List.map_const', List.length_finRange]
  refine ⟨{ g.stream with pool := none },
    ⟨h.thread, rfl, h.channel, h.attached, h.refs, h.held⟩, ?_⟩
  rw [Globals.destroyPool, hpool]
  show (if sysBufferPoolDestroy pool ≠ .ok then _ else _) = _
  rw [hdestroy, if_neg (not_not_intro rfl), hcounts]

/-- The camera's reference of the channel is the last one. -/
theorem Stream.Live.releaseChannel (h : g.stream.Live P) (hthread : g.stream.thread = none)
    (hfree : ∀ c, g.stream.Free c) :
    ∃ stream : Stream C g.blocks, stream.Drained P ∧
      g.releaseChannel P = Globals.log { g with stream := stream } .channelFreed := by
  obtain ⟨pool, ch, h⟩ := h
  obtain ⟨pool', hrelease, hcounted, hzero⟩ := h.drain hthread hfree
  have hatt : ¬ g.stream.attached = false := by simp [h.attached]
  refine ⟨{ g.stream with channel := none, pool := some pool', attached := false },
    ⟨hthread, ⟨pool', rfl, hcounted, hzero⟩, rfl, rfl, funext fun c => (hfree c).1,
      funext fun c => funext fun b => (hfree c).2 b⟩, ?_⟩
  simp only [Globals.releaseChannel, if_neg hatt, h.channel_eq, h.pool_eq, hrelease,
    Option.isNone_none, if_true]

theorem Stream.Drained.cleanupPool (h : g.stream.Drained P) :
    ∃ stream : Stream C g.blocks, stream.Gone ∧ g.cleanupPool =
      (.ok,
        Globals.log { g with stream := stream } (.poolDestroyed (List.replicate g.blocks 0))) := by
  obtain ⟨pool, hpool, -⟩ := h.pool
  have hsome : ¬ g.stream.pool.isNone = true := by simp [hpool]
  rw [Globals.cleanupPool, if_neg hsome, h.waitIdle]
  exact h.destroyPool

/-- `cleanup_stream_resources` of a pool without a channel. -/
theorem Stream.Drained.cleanup (h : g.stream.Drained P) :
    ∃ stream : Stream C g.blocks, stream.Gone ∧ cleanupStreamResources P g =
      (.ok,
        Globals.log { g with stream := stream } (.poolDestroyed (List.replicate g.blocks 0))) := by
  have hrelease : g.releaseChannel P = g := if_pos h.attached
  rw [cleanupStreamResources, hrelease]
  exact h.cleanupPool

/-- `cleanup_stream_resources` of a pool and a channel that nobody else uses. -/
theorem Stream.Live.cleanup (h : g.stream.Live P) (hthread : g.stream.thread = none)
    (hfree : ∀ c, g.stream.Free c) :
    ∃ stream : Stream C g.blocks, stream.Gone ∧ cleanupStreamResources P g =
      (.ok, { g with
        stream := stream
        trace := g.trace ++ [.channelFreed, .poolDestroyed (List.replicate g.blocks 0)] }) := by
  obtain ⟨drained, hdrained, hrelease⟩ := h.releaseChannel hthread hfree
  have hdrained : (Globals.log { g with stream := drained } .channelFreed).stream.Drained P :=
    hdrained
  obtain ⟨stream, hgone, hcleanup⟩ := hdrained.cleanupPool
  refine ⟨stream, hgone, ?_⟩
  rw [cleanupStreamResources, hrelease, hcleanup]
  simp only [Globals.log, List.append_assoc, List.cons_append, List.nil_append]

/-! ## Creating a stream -/

/-- What a start has done when it has created a stream with `n` buffers. -/
def createdObs (n : Nat) : List Obs := [.poolCreated n, .channelCreated, .threadCreated]

/-- What a start has done that could not create the stream: nothing, or it has given up the
    pool, or the pool and the channel. -/
inductive GaveUp (n : Nat) : List Obs → Prop
  | pool : GaveUp n []
  | channel : GaveUp n [.poolCreated n, .poolDestroyed (List.replicate n 0)]
  | thread : GaveUp n [.poolCreated n, .channelCreated, .channelFreed,
      .poolDestroyed (List.replicate n 0)]

/-- The stream with a new pool and a new channel. -/
def Stream.fresh (C : Type*) {n : Nat} (pool : Pool n) (ch : SysChannel n) : Stream C n :=
  { pool := some pool, channel := some ch, attached := true }

theorem Stream.fresh_linked {n : Nat} {pool : Pool n} {ch : SysChannel n} (hP : 0 < P.uintMax)
    (hcounted : pool.Counted P) (hzero : ∀ b, pool.count b = 0) (hvalid : ch.Valid P)
    (hitems : ch.items = []) (hcount : ch.referenceCount = 1) :
    (Stream.fresh C pool ch).Linked P pool ch where
  pool_eq := rfl
  channel_eq := rfl
  attached := rfl
  counted := hcounted
  valid := hvalid
  refs_finite := by simp [Stream.fresh]
  references := by
    rw [hcount]
    show 1 = 1 + ∑ᶠ _ : C, 0
    rw [finsum_zero, Nat.add_zero]
  references_le := by
    rw [hcount]
    exact hP
  held_finite b := by simp [Stream.fresh]
  balance b := by
    rw [hzero, hitems]
    show 0 = ([] : List (Fin n)).count b + ([] : List (Fin n)).count b + ∑ᶠ _ : C, 0
    rw [finsum_zero, List.count_nil, Nat.add_zero]

theorem Stream.fresh_free {n : Nat} (pool : Pool n) (ch : SysChannel n) (c : C) :
    (Stream.fresh C pool ch).Free c := ⟨rfl, fun _ => rfl⟩

/-- What the creation of a stream with `n` buffers leaves of a camera in `state` that has
    done `trace` so far. -/
inductive Creates (P : Platform) (n : Nat) (state : CameraState) (trace : List Obs) :
    SysErr × Globals C → Prop
  | gaveUp {ret left obs} : ret ≠ .ok → GaveUp n obs → left.state = state →
      left.streaming = false → left.stream.Gone → left.trace = trace ++ obs →
      Creates P n state trace (ret, left)
  | created {left} : left.Up P state → left.blocks = n →
      left.trace = trace ++ createdObs n → Creates P n state trace (.ok, left)

theorem sysBufferPoolCreate_result (P : Platform) (n blockCapacity : Nat) (outPool : Bool)
    (environment : SysErr) :
    (∃ pool : Pool n,
      sysBufferPoolCreate P n blockCapacity outPool environment = (.ok, some pool)) ∨
      ∃ ret, ret ≠ .ok ∧
        sysBufferPoolCreate P n blockCapacity outPool environment = (ret, none) := by
  unfold sysBufferPoolCreate
  split
  · exact Or.inr ⟨_, by decide, rfl⟩
  · split
    · exact Or.inr ⟨_, by decide, rfl⟩
    · split
      · rename_i henvironment
        exact Or.inr ⟨_, henvironment, rfl⟩
      · exact Or.inl ⟨_, rfl⟩

section Create

variable {config : CameraStreamConfig} {env : CreateEnv} {state : CameraState} {trace : List Obs}

theorem createThread_creates (hlive : g.stream.Live P) (hthread : g.stream.thread = none)
    (hfree : ∀ c, g.stream.Free c) (hstate : g.state = state)
    (htrace : g.trace = trace ++ [.poolCreated g.blocks, .channelCreated]) :
    Creates P g.blocks state trace (createThread P config env g) := by
  unfold createThread
  dsimp only
  split
  · rename_i hret
    obtain ⟨stream, hgone, hcleanup⟩ := Stream.Live.cleanup (g := { g with
      config := config
      frames := { sequence := 0, dropped := 0, generation := g.frames.generation + 1 }
      streaming := false }) hlive hthread hfree
    rw [hcleanup]
    refine .gaveUp hret GaveUp.thread hstate rfl hgone ?_
    show g.trace ++ _ = _
    rw [htrace, List.append_assoc]
    rfl
  · obtain ⟨pool, ch, hlinked⟩ := hlive
    have hrefs : g.stream.producerRefs = [] := by
      rw [Stream.producerRefs, hthread]
    refine .created ⟨hstate, rfl, ⟨pool, ch, hlinked.withThread hrefs.symm⟩⟩ rfl ?_
    show g.trace ++ _ = _
    rw [htrace, List.append_assoc]
    rfl

theorem createChannel_creates (hP : 0 < P.uintMax) {pool : Pool g.blocks}
    (hstream : g.stream = { pool := some pool }) (hcounted : pool.Counted P)
    (hzero : ∀ b, pool.count b = 0) (hstate : g.state = state) (hstreaming : g.streaming = false)
    (htrace : g.trace = trace ++ [.poolCreated g.blocks]) :
    Creates P g.blocks state trace (createChannel P config env g) := by
  unfold createChannel sysChannelCreate
  rcases sysChannelCreateWithConfig_spec (n := g.blocks) P (some ⟨config.bufferCount, fullFail⟩)
      true env.channel.error with
    ⟨ch, config', -, hchannel, hvalid, hfifo, hcount⟩ | ⟨ret, hret, hchannel⟩
  · have hitems : ch.items = [] := congrArg Fifo.State.items hfifo
    have hlinked : (Stream.fresh C pool ch).Linked P pool ch :=
      Stream.fresh_linked hP hcounted hzero hvalid hitems hcount
    rw [hchannel, hstream]
    refine createThread_creates (g := Globals.log { g with stream := Stream.fresh C pool ch } _)
      ⟨pool, ch, hlinked⟩ rfl (Stream.fresh_free pool ch) hstate ?_
    show g.trace ++ _ = _
    rw [htrace, List.append_assoc]
    rfl
  · rw [hchannel, hstream]
    dsimp only
    rw [if_pos hret]
    have hdrained : Stream.Drained (C := C) P { pool := some pool } :=
      ⟨rfl, ⟨pool, rfl, hcounted, hzero⟩, rfl, rfl, rfl, rfl⟩
    obtain ⟨stream, hgone, hcleanup⟩ :=
      Stream.Drained.cleanup (g := { g with stream := { pool := some pool } }) hdrained
    show Creates P g.blocks state trace
      (ret, (cleanupStreamResources P { g with stream := { pool := some pool } }).2)
    rw [hcleanup]
    refine .gaveUp hret GaveUp.channel hstate hstreaming hgone ?_
    show g.trace ++ _ = _
    rw [htrace, List.append_assoc]
    rfl

/-- `create_stream_resources` creates everything or leaves nothing. -/
theorem createStreamResources_creates (config : CameraStreamConfig) (env : CreateEnv)
    (hP : 0 < P.uintMax) (frameCapacity : Nat)
    (hstate : g.state = state) (hstreaming : g.streaming = false) :
    Creates P config.bufferCount state g.trace
      (createStreamResources P config frameCapacity env g) := by
  unfold createStreamResources
  rcases sysBufferPoolCreate_result P config.bufferCount frameCapacity true env.pool.error with
    ⟨pool, hpool⟩ | ⟨ret, hret, hpool⟩
  · obtain ⟨hcounted, hzero⟩ := sysBufferPoolCreate_counted hpool
    rw [hpool]
    exact createChannel_creates (g := Globals.log
      { g with blocks := config.bufferCount, stream := { pool := some pool } } _)
      hP rfl hcounted hzero hstate hstreaming rfl
  · have hcleanup : ∀ g' : Globals C, g'.stream.attached = false → g'.stream.pool = none →
        cleanupStreamResources P g' = (.ok, g') := by
      intro g' hatt hnone
      have hrelease : g'.releaseChannel P = g' := if_pos hatt
      rw [cleanupStreamResources, hrelease, Globals.cleanupPool, if_pos (by rw [hnone]; rfl)]
    rw [hpool]
    dsimp only
    rw [if_pos hret, hcleanup _ rfl rfl]
    exact .gaveUp hret GaveUp.pool hstate hstreaming ⟨rfl, rfl, rfl, rfl, rfl, rfl⟩
      (List.append_nil _).symm

/-! ## Starting and stopping -/

/-- What the section of a start under the mutex does to a camera that is idle. -/
inductive Starts (P : Platform) (trace : List Obs) : Outcome × Globals C → Prop
  | failed {ret left n obs} : ret ≠ .ok → left.Idle → GaveUp n obs →
      left.trace = trace ++ obs → Starts P trace (.leave ret, left)
  | created {event left} : left.Up P .starting →
      left.trace = trace ++ createdObs left.blocks → Starts P trace (.goOn event, left)

theorem startLocked_starts (hP : 0 < P.uintMax) (h : g.Idle) (frameCapacity : Nat) :
    Starts P g.trace (startLocked P config frameCapacity env g) := by
  have hfree : ¬ (g.state ≠ .stopped ∨ g.stream.pool.isSome = true) := by
    simp [h.state, h.gone.pool]
  unfold startLocked
  rw [if_neg hfree]
  have hcreates := createStreamResources_creates (g := { g with state := .starting }) config env
    hP frameCapacity rfl h.streaming
  generalize createStreamResources P config frameCapacity env { g with state := .starting } = r
    at hcreates
  cases hcreates with
  | gaveUp hret hobs hstate hstreaming hgone htrace =>
      dsimp only
      rw [if_pos hret]
      exact .failed hret ⟨rfl, hstreaming, hgone⟩ hobs htrace
  | created hup hblocks htrace =>
      dsimp only
      rw [if_neg (not_not_intro rfl)]
      refine .created hup ?_
      rw [hblocks]
      exact htrace

theorem calculateFrameCapacity_error {config : Option CameraStreamConfig} {ret : SysErr}
    (h : calculateFrameCapacity P config = .error ret) : ret = .invalidParam := by
  unfold calculateFrameCapacity at h
  cases config with
  | none => exact (Except.error.inj h).symm
  | some config =>
      dsimp only at h
      split at h
      · exact (Except.error.inj h).symm
      · split at h
        · exact (Except.error.inj h).symm
        · split at h
          · exact (Except.error.inj h).symm
          · cases h

/-- A start is refused for its configuration, or comes to the mutex. -/
theorem cameraRealStart_cases (config : Option CameraStreamConfig) (env : CreateEnv)
    (g : Globals C) :
    cameraRealStart P config env g = (.leave .invalidParam, g) ∨
      ∃ config' frameCapacity, config = some config' ∧
        calculateFrameCapacity P config = .ok frameCapacity ∧
        cameraRealStart P config env g = startLocked P config' frameCapacity env g := by
  cases config with
  | none => exact Or.inl rfl
  | some config =>
      simp only [cameraRealStart]
      cases hcapacity : calculateFrameCapacity P (some config) with
      | error ret =>
          obtain rfl := calculateFrameCapacity_error hcapacity
          exact Or.inl rfl
      | ok frameCapacity => exact Or.inr ⟨config, frameCapacity, rfl, rfl, rfl⟩

theorem cameraRealStart_starts (hP : 0 < P.uintMax) (h : g.Idle)
    (config : Option CameraStreamConfig) (env : CreateEnv) :
    Starts P g.trace (cameraRealStart P config env g) := by
  rcases cameraRealStart_cases (P := P) config env g with heq | ⟨_, frameCapacity, -, -, heq⟩
  · rw [heq]
    exact .failed (by decide) h (n := 0) GaveUp.pool (List.append_nil _).symm
  · rw [heq]
    exact startLocked_starts hP h frameCapacity

/-- A camera that is not `STOPPED` refuses a start. -/
theorem cameraRealStart_refuses (h : g.state ≠ .stopped) (config : Option CameraStreamConfig)
    (env : CreateEnv) :
    ∃ ret, ret ≠ .ok ∧ cameraRealStart P config env g = (.leave ret, g) := by
  rcases cameraRealStart_cases (P := P) config env g with heq | ⟨_, frameCapacity, -, -, heq⟩
  · exact ⟨_, by decide, heq⟩
  · refine ⟨.state, by decide, ?_⟩
    rw [heq, startLocked, if_pos (Or.inl h)]

theorem Globals.Idle.realStop (h : g.Idle) : cameraRealStop g = (.leave .ok, g) := by
  rw [cameraRealStop, if_pos h.state]

theorem Globals.Up.realStop (h : g.Up P .running) :
    cameraRealStop g = (.goOn g.event, { g with state := .stopping }) := by
  obtain ⟨pool, ch, hlinked⟩ := h.live
  have hstopped : g.state ≠ .stopped := by simp [h.state]
  have hready :
      ¬ (g.state ≠ .running ∨ g.stream.pool.isNone = true ∨ g.stream.attached = false) := by
    simp [h.state, hlinked.pool_eq, hlinked.attached]
  rw [cameraRealStop, if_neg hstopped, if_neg hready]

/-- A camera between two states refuses a stop. -/
theorem cameraRealStop_refuses (h : g.state = .starting ∨ g.state = .stopping) :
    cameraRealStop g = (.leave .busy, g) := by
  have hstopped : g.state ≠ .stopped := by
    rcases h with h | h <;> simp [h]
  have hrunning : g.state ≠ .running := by
    rcases h with h | h <;> simp [h]
  rw [cameraRealStop, if_neg hstopped, if_pos (Or.inl hrunning)]

end Create

end Camera
end AppCore
