/-
  AppCore.Camera.Phases

  What holds of the camera at each point of a call that is starting a stream or taking one
  down, and that there is at most one such call.
-/

import AppCore.Camera.Sections

namespace AppCore
namespace Camera

open Channel

variable {T C : Type*} {P : Platform}

/-! ## The points of a call -/

/-- A stream that is being taken down and has no producer any more. -/
structure Globals.Joined (P : Platform) (g : Globals C) : Prop where
  state : g.state = .stopping
  streaming : g.streaming = false
  thread : g.stream.thread = none
  live : g.stream.Live P

/-- The camera between two calls. -/
def Globals.Rest (P : Platform) (g : Globals C) : Prop := g.Idle ∨ g.Up P .running

/-- What holds at a point of `rollback_stream_start` or `camera_real_stop`. -/
def Stage.Holds (P : Platform) (g : Globals C) : Stage C → Prop
  | .mark => g.Up P .starting
  | .silence => g.Up P .stopping
  | .requestStop => g.Up P .stopping ∧ g.streaming = false
  | .close => g.Up P .stopping ∧ g.streaming = false
  | .join => g.Up P .stopping ∧ g.streaming = false
  | .joinFailed _ => False
  | .publish => g.Joined P
  | .notify pending _ => g.Joined P ∧ ∀ c, c ∉ pending → g.stream.Free c
  | .release _ => g.Joined P ∧ ∀ c, g.stream.Free c
  | .wait _ => g.state = .stopping ∧ g.streaming = false ∧ g.stream.Drained P
  | .waiting _ => False
  | .destroy _ => g.state = .stopping ∧ g.streaming = false ∧ g.stream.Drained P
  | .settle _ poolRet => g.state = .stopping ∧ g.streaming = false ∧ g.stream.Gone ∧ poolRet = .ok

/-- What holds at a point of a call. -/
def CallState.Holds (P : Platform) (g : Globals C) : CallState C → Prop
  | .created _ => g.Up P .starting
  | .starting _ _ _ => g.Up P .starting
  | .teardown _ _ stage => stage.Holds P g
  | _ => g.Rest P

/-- What `rollback_stream_start` has done at a point. -/
def Stage.done (n : Nat) (event : CameraStreamEvent) : Stage C → List Obs
  | .join => [.channelClosed]
  | .publish => [.channelClosed, .threadJoined]
  | .notify _ _ => [.channelClosed, .threadJoined, .published cameraEventStreamStopping event]
  | .release _ => [.channelClosed, .threadJoined, .published cameraEventStreamStopping event]
  | .wait _ => [.channelClosed, .threadJoined, .published cameraEventStreamStopping event,
      .channelFreed]
  | .destroy _ => [.channelClosed, .threadJoined, .published cameraEventStreamStopping event,
      .channelFreed]
  | .settle _ _ => [.channelClosed, .threadJoined, .published cameraEventStreamStopping event,
      .channelFreed, .poolDestroyed (List.replicate n 0)]
  | _ => []

/-- What a start has done that was rolled back. -/
def rolledBackObs (n : Nat) (event : CameraStreamEvent) : List Obs :=
  createdObs n ++ [.published cameraEventStreamStarted event] ++
    [.channelClosed, .threadJoined, .published cameraEventStreamStopping event, .channelFreed,
      .poolDestroyed (List.replicate n 0)]

/-- `new` is what a start of a stream with `n` buffers has done at a point. -/
def CallState.Traced (n : Nat) (new : List Obs) : CallState C → Prop
  | .created _ => new = createdObs n
  | .starting event _ _ => new = createdObs n ++ [.published cameraEventStreamStarted event]
  | .teardown (.rollback ret) event stage =>
    ret ≠ .ok ∧
      new = createdObs n ++ [.published cameraEventStreamStarted event] ++ stage.done n event
  | .returned ret => ret ≠ .ok → ∃ event, new = rolledBackObs n event
  | _ => False

/-- A section of a call leads to the next point. -/
structure Advances (P : Platform) (g : Globals C) (st : CallState C)
    (r : CallState C × Globals C) : Prop where
  holds : r.1.Holds P r.2
  blocks : r.2.blocks = g.blocks
  trace : ∃ obs, r.2.trace = g.trace ++ obs ∧
    ∀ new, st.Traced g.blocks new → r.1.Traced g.blocks (new ++ obs)
  failed : ∀ ret, r.1 = .returned ret → ret ≠ .ok → r.2.Idle

section Sections

variable {g : Globals C} {st : CallState C} {r : CallState C × Globals C}

/-- A section that does nothing worth recording. -/
theorem Advances.quiet (st' : CallState C) {g' : Globals C} (hholds : st'.Holds P g')
    (hblocks : g'.blocks = g.blocks) (htrace : g'.trace = g.trace)
    (htraced : ∀ new, st.Traced g.blocks new → st'.Traced g.blocks new)
    (hfailed : ∀ ret, st' = .returned ret → ret ≠ .ok → g'.Idle) :
    Advances P g st (st', g') where
  holds := hholds
  blocks := hblocks
  trace := ⟨[], by rw [htrace, List.append_nil], fun new hnew => by
    rw [List.append_nil]
    exact htraced new hnew⟩
  failed := hfailed

theorem not_returned {t : Teardown} {event : CameraStreamEvent} {stage : Stage C}
    {P : SysErr → Prop} :
    ∀ ret, CallState.teardown t event stage = .returned ret → P ret :=
  fun _ h => by cases h

/-- A section that leads from one point of a teardown to another, and does `obs`. -/
theorem Advances.stage {t : Teardown} {event : CameraStreamEvent} {stage : Stage C}
    {g' : Globals C} (stage' : Stage C) (obs : List Obs) (hholds : stage'.Holds P g')
    (hblocks : g'.blocks = g.blocks) (htrace : g'.trace = g.trace ++ obs)
    (hdone : stage'.done g.blocks event = stage.done g.blocks event ++ obs) :
    Advances P g (.teardown t event stage) (.teardown t event stage', g') where
  holds := hholds
  blocks := hblocks
  trace := by
    refine ⟨obs, htrace, fun new hnew => ?_⟩
    cases t with
    | stop => exact hnew.elim
    | rollback ret =>
        obtain ⟨hret, rfl⟩ := hnew
        exact ⟨hret, by rw [hdone, List.append_assoc _ _ obs]⟩
  failed := not_returned

/-- Closing the channel of a stream that is up. -/
theorem Globals.Up.closeChannel (h : g.Up P .stopping) :
    g.closeChannel.Up P .stopping ∧ g.closeChannel.streaming = g.streaming ∧
      g.closeChannel.blocks = g.blocks ∧ g.closeChannel.trace = g.trace ++ [.channelClosed] := by
  obtain ⟨pool, ch, hlinked⟩ := h.live
  have hatt : ¬ g.stream.attached = false := by simp [hlinked.attached]
  rw [Globals.closeChannel, if_neg hatt]
  refine ⟨⟨h.state, h.thread, pool, sysChannelClose ch, ?_⟩, rfl, rfl, rfl⟩
  refine hlinked.moveQueue rfl ?_ rfl rfl hlinked.valid.close rfl hlinked.held_finite fun i => rfl
  show g.stream.channel.map sysChannelClose = _
  rw [hlinked.channel_eq]
  rfl

/-- The request to stop leaves the references of the producer. -/
theorem Globals.Up.requestStop (h : g.Up P .stopping) : g.requestStop.Up P .stopping := by
  obtain ⟨pool, ch, hlinked⟩ := h.live
  obtain ⟨p, hp⟩ := Option.isSome_iff_exists.mp h.thread
  refine ⟨h.state, ?_, pool, ch, hlinked.withThread ?_⟩
  · show (g.stream.thread.map _).isSome = true
    rw [hp]
    rfl
  · rw [Stream.producerRefs, Stream.producerRefs, hp]
    rfl

/-- A stream whose producer has left its loop, without the producer. -/
theorem Stream.Live.join {n : Nat} {s : Stream C n} (h : s.Live P) {p : Producer n}
    (hp : s.thread = some p) (hexited : p.loop = .exited) :
    Stream.Live P { s with thread := none } := by
  obtain ⟨pool, ch, hlinked⟩ := h
  refine ⟨pool, ch, hlinked.withThread ?_⟩
  rw [Stream.refs_of_loop hp hexited]
  rfl

/-- The sections of a teardown. -/
theorem teardownSection_advances {t : Teardown} {event : CameraStreamEvent} {stage : Stage C}
    (h : stage.Holds P g) (hr : teardownSection P t event g stage = some r) :
    Advances P g (.teardown t event stage) r := by
  cases stage with
  | mark =>
      obtain rfl := Option.some.inj hr
      have hup : Globals.Up P .stopping { g with state := .stopping } := ⟨rfl, h.thread, h.live⟩
      exact Advances.stage .silence [] hup rfl (List.append_nil _).symm rfl
  | silence =>
      obtain rfl := Option.some.inj hr
      have hup : Globals.Up P .stopping { g with streaming := false } :=
        ⟨h.state, h.thread, h.live⟩
      exact Advances.stage .requestStop [] ⟨hup, rfl⟩ rfl
        (List.append_nil _).symm rfl
  | requestStop =>
      obtain rfl := Option.some.inj hr
      exact Advances.stage .close [] ⟨h.1.requestStop, h.2⟩ rfl
        (List.append_nil _).symm rfl
  | close =>
      obtain rfl := Option.some.inj hr
      obtain ⟨hup, hstreaming, hblocks, htrace⟩ := h.1.closeChannel
      exact Advances.stage .join [.channelClosed] ⟨hup, hstreaming.trans h.2⟩ hblocks htrace rfl
  | join =>
      obtain ⟨hup, hstreaming⟩ := h
      obtain ⟨p, hp⟩ := Option.isSome_iff_exists.mp hup.thread
      simp only [teardownSection, hp] at hr
      split at hr
      · rename_i hexited
        obtain rfl := Option.some.inj hr
        exact Advances.stage .publish [.threadJoined]
          ⟨hup.state, hstreaming, rfl, hup.live.join hp hexited⟩ rfl rfl rfl
      · cases hr
  | joinFailed ret => exact h.elim
  | publish => cases hr
  | notify pending firstError =>
      cases pending with
      | nil =>
          obtain rfl := Option.some.inj hr
          exact Advances.stage (.release firstError) []
            ⟨h.1, fun c => h.2 c List.not_mem_nil⟩ rfl (List.append_nil _).symm rfl
      | cons c rest => cases hr
  | release eventRet =>
      obtain rfl := Option.some.inj hr
      obtain ⟨hjoined, hfree⟩ := h
      obtain ⟨stream, hdrained, hrelease⟩ := hjoined.live.releaseChannel hjoined.thread hfree
      rw [hrelease]
      exact Advances.stage (.wait eventRet) [.channelFreed]
        ⟨hjoined.state, hjoined.streaming, hdrained⟩ rfl rfl rfl
  | wait eventRet =>
      obtain ⟨hstate, hstreaming, hdrained⟩ := h
      obtain ⟨pool, hpool, -⟩ := hdrained.pool
      -- the pool is idle, so that the wait returns at once
      simp only [teardownSection, hpool, hdrained.waitIdle] at hr
      obtain rfl := Option.some.inj hr
      exact Advances.stage (.destroy eventRet) []
        ⟨hstate, hstreaming, hdrained⟩ rfl (List.append_nil _).symm rfl
  | waiting eventRet => exact h.elim
  | destroy eventRet =>
      obtain ⟨hstate, hstreaming, hdrained⟩ := h
      obtain ⟨stream, hgone, hdestroy⟩ := hdrained.destroyPool
      simp only [teardownSection, hdestroy] at hr
      obtain rfl := Option.some.inj hr
      exact Advances.stage (.settle eventRet .ok) [.poolDestroyed _]
        ⟨hstate, hstreaming, hgone, rfl⟩ rfl rfl rfl
  | settle eventRet poolRet =>
      obtain rfl := Option.some.inj hr
      obtain ⟨hstate, hstreaming, hgone, rfl⟩ := h
      have hsettled : t.state g = .stopped := by
        cases t <;> simp [Teardown.state, hgone.pool, hgone.thread]
      have hidle : Globals.Idle { g with state := t.state g } := ⟨hsettled, hstreaming, hgone⟩
      refine Advances.quiet (.returned _) (Or.inl hidle) rfl rfl (fun new hnew => ?_)
        fun ret _ _ => hidle
      cases t with
      | stop => exact hnew.elim
      | rollback ret => exact fun _ => ⟨event, hnew.2⟩

/-- The sections without a choice. -/
theorem proceed_advances (h : st.Holds P g) (hr : proceed P g st = some r) :
    Advances P g st r := by
  cases st with
  | starting event pending firstError =>
      cases pending with
      | cons c rest => cases hr
      | nil =>
          simp only [proceed] at hr
          split at hr
          · rename_i hfirst
            obtain rfl := Option.some.inj hr
            refine Advances.quiet (.teardown (.rollback firstError) event .mark) h rfl rfl
              (fun new hnew => ⟨hfirst, ?_⟩) not_returned
            rw [hnew]
            exact (List.append_nil _).symm
          · obtain rfl := Option.some.inj hr
            have hup : Globals.Up P .running { g with state := .running } :=
              ⟨rfl, h.thread, h.live⟩
            refine Advances.quiet (.returned _) (Or.inr hup) rfl rfl
              (fun new _ hret => absurd rfl hret) ?_
            intro ret heq hret
            cases heq
            exact absurd rfl hret
  | teardown t event stage => exact teardownSection_advances h hr
  | _ => cases hr

theorem publish_advances {subscribers : Option (List C)} (h : st.Holds P g)
    (hinforms : st.announcing = true → ∀ c, g.stream.Free c ∨ c ∈ (publishSync subscribers).1)
    (hr : publish subscribers g st = some r) : Advances P g st r := by
  cases st with
  | created event =>
      obtain rfl := Option.some.inj hr
      have hup : Globals.Up P .starting (g.log (.published cameraEventStreamStarted event)) :=
        ⟨h.state, h.thread, h.live⟩
      refine ⟨hup, rfl, ⟨_, rfl, fun new hnew => ?_⟩, fun ret heq => by cases heq⟩
      show new ++ _ = _
      rw [show new = _ from hnew]
  | teardown t event stage =>
      cases stage with
      | publish =>
          obtain rfl := Option.some.inj hr
          refine Advances.stage (.notify _ _) [.published _ _]
            ⟨⟨h.state, h.streaming, h.thread, h.live⟩, fun c hc => ?_⟩ rfl rfl rfl
          rcases hinforms rfl c with hfree | hmem
          · exact hfree
          · exact absurd hmem hc
      | _ => cases hr
  | _ => cases hr

theorem callbackReturned_advances {ret : SysErr} {st' : CallState C} (h : st.Holds P g)
    (hdrops : ∀ c, st.dropping = some c → g.stream.Free c)
    (hr : callbackReturned ret st = some st') : Advances P g st (st', g) := by
  cases st with
  | starting event pending firstError =>
      cases pending with
      | nil => cases hr
      | cons c rest =>
          obtain rfl := Option.some.inj hr
          exact Advances.quiet (.starting event rest _) h rfl rfl (fun new hnew => hnew)
            fun ret heq => by cases heq
  | teardown t event stage =>
      cases stage with
      | notify pending firstError =>
          cases pending with
          | nil => cases hr
          | cons c rest =>
              obtain rfl := Option.some.inj hr
              refine Advances.stage (.notify rest _) [] ⟨h.1, fun c' hc' => ?_⟩ rfl
                (List.append_nil _).symm rfl
              by_cases hcc : c' = c
              · rw [hcc]
                exact hdrops c rfl
              · exact h.2 c' fun hmem => (List.mem_cons.mp hmem).elim hcc hc'
      | _ => cases hr
  | _ => cases hr

/-- No call ever waits for the pool. -/
theorem wake_advances {ret : Int} (h : st.Holds P g) (hr : wake ret g st = some r) :
    Advances P g st r := by
  cases st with
  | teardown t event stage =>
      cases stage with
      | waiting eventRet => exact h.elim
      | _ => cases hr
  | _ => cases hr

end Sections

end Camera
end AppCore
