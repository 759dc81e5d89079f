/-
  AppCore.Camera.System

  The camera with everybody who uses it: any number of application threads that call
  `camera_start_stream` and `camera_stop_stream`, the producer thread, the consumers of
  the stream, and the thread that runs the camera component's stop and deinit.

  A call a subscriber makes in its callback is one of another caller here.  The bus
  chooses the subscribers of a publication, and the subscribers what they answer.
-/

import AppCore.Camera.Model
import AppCore.Lib.Machine
import AppCore.Service.Model

namespace AppCore
namespace Camera

open Channel Service

/-- What a caller wants. -/
inductive Request where
  | start (config : Option CameraStreamConfig)
  | stop
deriving DecidableEq, Repr

/-- `camera_start_stream`. -/
def cameraStartStream (fps width height : Nat) : Request :=
  .start (some { fps := fps, width := width, height := height, bufferCount := 8 })

/-- `camera_stop_stream`. -/
def cameraStopStream : Request := .stop

/-- Why a stream is taken down. -/
inductive Teardown where
  /-- `rollback_stream_start`, for a start that will return `ret`. -/
  | rollback (ret : SysErr)
  /-- `camera_real_stop`. -/
  | stop
deriving DecidableEq, Repr

/-- The sections of `rollback_stream_start`, and of `camera_real_stop` after the unlock. -/
inductive Stage (C : Type*) where
  /-- Before the lock of `rollback_stream_start`. -/
  | mark
  /-- Before `g_camera_streaming` is cleared. -/
  | silence
  | requestStop
  | close
  | join
  /-- The join has failed with `ret`. -/
  | joinFailed (ret : SysErr)
  | publish
  /-- In `sys_event_publish_sync`: the callback of the first of `pending` is running. -/
  | notify (pending : List C) (firstError : SysErr)
  | release (eventRet : SysErr)
  /-- Before `sys_buffer_pool_wait_idle`. -/
  | wait (eventRet : SysErr)
  /-- In its wait. -/
  | waiting (eventRet : SysErr)
  | destroy (eventRet : SysErr)
  /-- Before the last lock. -/
  | settle (eventRet poolRet : SysErr)
deriving DecidableEq, Repr

/-- Where a call is. -/
inductive CallState (C : Type*) where
  | idle
  /-- Before the lock of `camera_real_start` or `camera_real_stop`. -/
  | entered (request : Request)
  /-- In `camera_real_start`, before the started event is published. -/
  | created (event : CameraStreamEvent)
  /-- In its `sys_event_publish_sync`: the callback of the first of `pending` is running. -/
  | starting (event : CameraStreamEvent) (pending : List C) (firstError : SysErr)
  | teardown (t : Teardown) (event : CameraStreamEvent) (stage : Stage C)
  /-- `camera_real_start` or `camera_real_stop` has returned `ret`. -/
  | returned (ret : SysErr)
deriving DecidableEq, Repr

/-- A call that is past its section under the mutex. -/
def CallState.Active {C : Type*} : CallState C → Prop
  | .created _ => True
  | .starting _ _ _ => True
  | .teardown _ _ _ => True
  | _ => False

/-- The consumer whose callback a call is running. -/
def CallState.callback {C : Type*} : CallState C → Option C
  | .starting _ pending _ => pending.head?
  | .teardown _ _ (.notify pending _) => pending.head?
  | _ => none

/-- A call that is about to publish the stopping event. -/
def CallState.announcing {C : Type*} : CallState C → Bool
  | .teardown _ _ .publish => true
  | _ => false

/-- The consumer whose callback of the stopping event a call is running. -/
def CallState.dropping {C : Type*} : CallState C → Option C
  | .teardown _ _ (.notify pending _) => pending.head?
  | _ => none

/-- Who calls: an application thread, or the thread that shuts the components down. -/
inductive Caller (T : Type*) where
  | thread (t : T)
  | shutdown
deriving DecidableEq, Repr

/-- How far `sys_core_shutdown` has come with the camera. -/
inductive Shutdown where
  /-- It has not stopped the camera yet. -/
  | running
  /-- In `camera_component_stop`. -/
  | stopping
  /-- `camera_component_stop` has returned `ret`. -/
  | stopped (ret : SysErr)
  /-- In the wait of `sys_service_unregister`. -/
  | unregistering
  /-- `camera_deinit` has returned. -/
  | done
deriving DecidableEq, Repr

/-- The camera, its slot in the service registry, and the calls. -/
structure System (T C : Type*) where
  camera : Globals C
  slot : ServiceSlot
  calls : Caller T → CallState C
  shutdown : Shutdown

/-- The atomic steps. -/
inductive Event (T C : Type*) where
  /-- `sys_service_acquire` for a request. -/
  | acquire (t : T) (request : Request)
  /-- The section of `camera_real_start` under the mutex. -/
  | start (k : Caller T) (env : CreateEnv)
  /-- The section of `camera_real_stop` under the mutex. -/
  | stop (k : Caller T)
  /-- A publication; there are no subscribers when the bus does not accept it. -/
  | publish (k : Caller T) (subscribers : Option (List C))
  /-- A callback returns `ret`. -/
  | callbackReturned (k : Caller T) (ret : SysErr)
  /-- The next section of a call. -/
  | proceed (k : Caller T)
  /-- A wait for the pool has returned `ret`. -/
  | wake (k : Caller T) (ret : Int)
  /-- `sys_service_release` at the end of a request. -/
  | release (t : T)
  /-- `stop_started_components` calls `camera_component_stop`. -/
  | componentStop
  /-- `camera_component_stop` returns. -/
  | componentStopped
  /-- `deinitialize_components` calls `camera_deinit`. -/
  | deinit
  /-- `sys_service_unregister` wakes up. -/
  | unregisterWake
  | producer (timestamp : UInt64)
  | consumer (c : C) (action : ConsumerAction)
deriving DecidableEq, Repr

/-! ## The camera's slot of the registry -/

/-- `sys_service_acquire` when it looks for the camera's slot. -/
def acquireSlot (sizeMax : Nat) (slot : ServiceSlot) : SysErr × ServiceSlot :=
  if slot.used = false ∨ slot.accepting = false then (.notFound, slot)
  else if slot.referenceCount = sizeMax then (.overflow, slot)
  else (.ok, { slot with referenceCount := slot.referenceCount + 1 })

/-- `sys_service_release` of a reference of the camera. -/
def releaseSlot (slot : ServiceSlot) : ServiceSlot :=
  if slot.referenceCount > 0 then { slot with referenceCount := slot.referenceCount - 1 } else slot

/-- The wait loop of `sys_service_unregister` and what follows it; `none` when it waits. -/
def unregisterSlotLoop (slot : ServiceSlot) : Option SysErr × ServiceSlot :=
  if slot.referenceCount ≠ 0 then (none, slot) else (some .ok, {})

/-- `sys_service_unregister` when it looks for the camera's slot. -/
def unregisterSlot (slot : ServiceSlot) : Option SysErr × ServiceSlot :=
  if slot.used = false then (some .notFound, slot)
  else unregisterSlotLoop { slot with accepting := false }

/-! ## The sections of a call -/

section Sections

variable {T C : Type*} (P : Platform)

/-- The new state after a stream was taken down. -/
def Teardown.state (t : Teardown) (g : Globals C) : CameraState :=
  match t with
  | .rollback _ =>
    if g.stream.pool.isNone ∧ g.stream.thread.isNone then .stopped else .error
  | .stop => if g.stream.pool.isNone then .stopped else .error

/-- What the call returns in the end. -/
def Teardown.result (t : Teardown) (eventRet poolRet : SysErr) : SysErr :=
  match t with
  | .rollback ret => ret
  | .stop => if eventRet ≠ .ok then eventRet else poolRet

/-- A section of `rollback_stream_start`, or of `camera_real_stop` after the unlock. -/
def teardownSection (t : Teardown) (event : CameraStreamEvent) (g : Globals C) :
    Stage C → Option (CallState C × Globals C)
  | .mark => some (.teardown t event .silence, { g with state := .stopping })
  | .silence => some (.teardown t event .requestStop, { g with streaming := false })
  | .requestStop => some (.teardown t event .close, g.requestStop)
  | .close => some (.teardown t event .join, g.closeChannel)
  | .join =>
    match g.stream.thread with
    | none => some (.teardown t event (.joinFailed .invalidParam), g)
    | some p =>
      -- `pthread_join` waits for the end of the thread
      if p.loop = .exited then
        some (.teardown t event .publish,
          Globals.log { g with stream := { g.stream with thread := none } } .threadJoined)
      else none
  | .joinFailed ret =>
    match t with
    | .rollback _ => some (.teardown t event (.settle .ok .ok), g)
    | .stop => some (.returned ret, { g with state := .error })
  | .publish => none
  | .notify [] firstError => some (.teardown t event (.release firstError), g)
  | .notify (_ :: _) _ => none
  | .release eventRet => some (.teardown t event (.wait eventRet), g.releaseChannel P)
  | .wait eventRet =>
    match t, g.stream.pool with
    | .rollback _, none => some (.teardown t event (.settle eventRet .ok), g)
    | _, _ =>
      match g.waitIdle with
      | some .ok => some (.teardown t event (.destroy eventRet), g)
      | some ret => some (.teardown t event (.settle eventRet ret), g)
      | none => some (.teardown t event (.waiting eventRet), g)
  | .waiting _ => none
  | .destroy eventRet =>
    let (ret, g) := g.destroyPool
    some (.teardown t event (.settle eventRet ret), g)
  | .settle eventRet poolRet =>
    some (.returned (t.result eventRet poolRet), { g with state := t.state g })

/-- The next section of a call. -/
def proceed (g : Globals C) : CallState C → Option (CallState C × Globals C)
  | .starting event [] firstError =>
    if firstError ≠ .ok then some (.teardown (.rollback firstError) event .mark, g)
    else some (.returned .ok, { g with state := .running })
  | .teardown t event stage => teardownSection P t event g stage
  | _ => none

/-- The result of `sys_event_publish_sync` before the first callback, and who is called. -/
def publishSync (subscribers : Option (List C)) : List C × SysErr :=
  match subscribers with
  | none => ([], .closed)
  | some subscribers => (subscribers, .ok)

/-- A publication of a call. -/
def publish (subscribers : Option (List C)) (g : Globals C) :
    CallState C → Option (CallState C × Globals C)
  | .created event =>
    let (pending, firstError) := publishSync subscribers
    some (.starting event pending firstError, g.log (.published cameraEventStreamStarted event))
  | .teardown t event .publish =>
    let (pending, firstError) := publishSync subscribers
    some (.teardown t event (.notify pending firstError),
      g.log (.published cameraEventStreamStopping event))
  | _ => none

/-- `first_error` after a callback has returned `ret`. -/
def firstErrorAfter (firstError ret : SysErr) : SysErr :=
  if firstError = .ok ∧ ret ≠ .ok then ret else firstError

/-- The callback of a call returns. -/
def callbackReturned (ret : SysErr) : CallState C → Option (CallState C)
  | .starting event (_ :: rest) firstError =>
    some (.starting event rest (firstErrorAfter firstError ret))
  | .teardown t event (.notify (_ :: rest) firstError) =>
    some (.teardown t event (.notify rest (firstErrorAfter firstError ret)))
  | _ => none

/-- The wait of a call for the pool has returned `ret`. -/
def wake (ret : Int) (g : Globals C) : CallState C → Option (CallState C × Globals C)
  | .teardown t event (.waiting eventRet) =>
    match g.wakeIdle ret with
    | some .ok => some (.teardown t event (.destroy eventRet), g)
    | some ret => some (.teardown t event (.settle eventRet ret), g)
    | none => some (.teardown t event (.waiting eventRet), g)
  | _ => none

/-- The section of `camera_real_start` under the mutex. -/
def startSection (env : CreateEnv) (g : Globals C) :
    CallState C → Option (CallState C × Globals C)
  | .entered (.start config) =>
    match cameraRealStart P config env g with
    | (.leave ret, g) => some (.returned ret, g)
    | (.goOn event, g) => some (.created event, g)
  | _ => none

/-- The section of `camera_real_stop` under the mutex. -/
def stopSection (g : Globals C) : CallState C → Option (CallState C × Globals C)
  | .entered .stop =>
    match cameraRealStop g with
    | (.leave ret, g) => some (.returned ret, g)
    | (.goOn event, g) => some (.teardown .stop event .silence, g)
  | _ => none

variable [DecidableEq T] [DecidableEq C]

/-- The call of `k` is now at `st`. -/
def System.setCall (s : System T C) (k : Caller T) (st : CallState C) : System T C :=
  { s with calls := Function.update s.calls k st }

/-- The call of `k` after a section. -/
def System.after (s : System T C) (k : Caller T) (r : CallState C × Globals C) : System T C :=
  System.setCall { s with camera := r.2 } k r.1

/-- One atomic step. -/
def next (s : System T C) : Event T C → Option (System T C)
  | .acquire t request =>
    if s.calls (.thread t) = .idle then
      let (ret, slot) := acquireSlot P.sizeMax s.slot
      if ret = .ok then some (System.setCall { s with slot := slot } (.thread t) (.entered request))
      else some s
    else none
  | .start k env => (startSection P env s.camera (s.calls k)).map (s.after k)
  | .stop k => (stopSection s.camera (s.calls k)).map (s.after k)
  | .publish k subscribers => (publish subscribers s.camera (s.calls k)).map (s.after k)
  | .callbackReturned k ret => (callbackReturned ret (s.calls k)).map (s.setCall k)
  | .proceed k => (proceed P s.camera (s.calls k)).map (s.after k)
  | .wake k ret => (wake ret s.camera (s.calls k)).map (s.after k)
  | .release t =>
    match s.calls (.thread t) with
    | .returned _ =>
      some (System.setCall { s with slot := releaseSlot s.slot } (.thread t) .idle)
    | _ => none
  | .componentStop =>
    if s.shutdown = .running ∧ s.calls .shutdown = .idle then
      some (System.setCall { s with shutdown := .stopping } .shutdown (.entered .stop))
    else none
  | .componentStopped =>
    match s.shutdown, s.calls .shutdown with
    | .stopping, .returned ret =>
      some (System.setCall { s with shutdown := .stopped ret } .shutdown .idle)
    | _, _ => none
  | .deinit =>
    match s.shutdown with
    | .stopped _ =>
      let (ret, slot) := unregisterSlot s.slot
      some { s with
        slot := slot, shutdown := if ret.isSome then .done else .unregistering }
    | _ => none
  | .unregisterWake =>
    if s.shutdown = .unregistering then
      let (ret, slot) := unregisterSlotLoop s.slot
      some { s with
        slot := slot, shutdown := if ret.isSome then .done else .unregistering }
    else none
  | .producer timestamp =>
    (cameraProducer P timestamp s.camera.stream s.camera.frames).map fun r =>
      { s with camera := { s.camera with stream := r.1, frames := r.2 } }
  | .consumer c action =>
    (consume P c s.camera.stream action).map fun stream =>
      { s with camera := { s.camera with stream := stream } }

/-- The steps, one by one, with what each finds. -/
inductive CameraStep (s : System T C) : Event T C → System T C → Prop
  | acquired {t request slot} : s.calls (.thread t) = .idle →
      acquireSlot P.sizeMax s.slot = (.ok, slot) →
      CameraStep s (.acquire t request)
        (System.setCall { s with slot := slot } (.thread t) (.entered request))
  /-- The service is not there, or its count is at its bound. -/
  | refused {t request} : s.calls (.thread t) = .idle → CameraStep s (.acquire t request) s
  | start {k env r} : startSection P env s.camera (s.calls k) = some r →
      CameraStep s (.start k env) (s.after k r)
  | stop {k r} : stopSection s.camera (s.calls k) = some r → CameraStep s (.stop k) (s.after k r)
  | publish {k subscribers r} : publish subscribers s.camera (s.calls k) = some r →
      CameraStep s (.publish k subscribers) (s.after k r)
  | callbackReturned {k ret st} : callbackReturned ret (s.calls k) = some st →
      CameraStep s (.callbackReturned k ret) (s.setCall k st)
  | proceed {k r} : proceed P s.camera (s.calls k) = some r →
      CameraStep s (.proceed k) (s.after k r)
  | wake {k ret r} : wake ret s.camera (s.calls k) = some r →
      CameraStep s (.wake k ret) (s.after k r)
  | release {t ret} : s.calls (.thread t) = .returned ret →
      CameraStep s (.release t)
        (System.setCall { s with slot := releaseSlot s.slot } (.thread t) .idle)
  | componentStop : s.shutdown = .running → s.calls .shutdown = .idle →
      CameraStep s .componentStop
        (System.setCall { s with shutdown := .stopping } .shutdown (.entered .stop))
  | componentStopped {ret} : s.shutdown = .stopping → s.calls .shutdown = .returned ret →
      CameraStep s .componentStopped
        (System.setCall { s with shutdown := .stopped ret } .shutdown .idle)
  | deinit {ret} : s.shutdown = .stopped ret →
      CameraStep s .deinit { s with
        slot := (unregisterSlot s.slot).2
        shutdown := if (unregisterSlot s.slot).1.isSome then .done else .unregistering }
  | unregisterWake : s.shutdown = .unregistering →
      CameraStep s .unregisterWake { s with
        slot := (unregisterSlotLoop s.slot).2
        shutdown := if (unregisterSlotLoop s.slot).1.isSome then .done else .unregistering }
  | producer {timestamp r} : cameraProducer P timestamp s.camera.stream s.camera.frames = some r →
      CameraStep s (.producer timestamp)
        { s with camera := { s.camera with stream := r.1, frames := r.2 } }
  | consumer {c action stream} : consume P c s.camera.stream action = some stream →
      CameraStep s (.consumer c action) { s with camera := { s.camera with stream := stream } }

/-- `next` does nothing else. -/
theorem next_cases {P : Platform} {s s' : System T C} {e : Event T C}
    (h : next P s e = some s') : CameraStep P s e s' := by
  cases e with
  | acquire t request =>
      simp only [next] at h
      split at h
      · rename_i hidle
        split at h
        · rename_i hret
          obtain rfl := Option.some.inj h
          exact CameraStep.acquired hidle (Prod.ext hret rfl)
        · obtain rfl := Option.some.inj h
          exact CameraStep.refused hidle
      · cases h
  | start k env =>
      obtain ⟨r, hr, rfl⟩ := Option.map_eq_some_iff.mp h
      exact CameraStep.start hr
  | stop k =>
      obtain ⟨r, hr, rfl⟩ := Option.map_eq_some_iff.mp h
      exact CameraStep.stop hr
  | publish k subscribers =>
      obtain ⟨r, hr, rfl⟩ := Option.map_eq_some_iff.mp h
      exact CameraStep.publish hr
  | callbackReturned k ret =>
      obtain ⟨st, hst, rfl⟩ := Option.map_eq_some_iff.mp h
      exact CameraStep.callbackReturned hst
  | proceed k =>
      obtain ⟨r, hr, rfl⟩ := Option.map_eq_some_iff.mp h
      exact CameraStep.proceed hr
  | wake k ret =>
      obtain ⟨r, hr, rfl⟩ := Option.map_eq_some_iff.mp h
      exact CameraStep.wake hr
  | release t =>
      simp only [next] at h
      split at h
      · rename_i hk
        obtain rfl := Option.some.inj h
        exact CameraStep.release hk
      · cases h
  | componentStop =>
      simp only [next] at h
      split at h
      · rename_i hrunning
        obtain rfl := Option.some.inj h
        exact CameraStep.componentStop hrunning.1 hrunning.2
      · cases h
  | componentStopped =>
      simp only [next] at h
      split at h
      · rename_i hstopping hk
        obtain rfl := Option.some.inj h
        exact CameraStep.componentStopped hstopping hk
      · cases h
  | deinit =>
      simp only [next] at h
      split at h
      · rename_i hstopped
        obtain rfl := Option.some.inj h
        exact CameraStep.deinit hstopped
      · cases h
  | unregisterWake =>
      simp only [next] at h
      split at h
      · rename_i hwaiting
        obtain rfl := Option.some.inj h
        exact CameraStep.unregisterWake hwaiting
      · cases h
  | producer timestamp =>
      obtain ⟨r, hr, rfl⟩ := Option.map_eq_some_iff.mp h
      exact CameraStep.producer hr
  | consumer c action =>
      obtain ⟨stream, hs, rfl⟩ := Option.map_eq_some_iff.mp h
      exact CameraStep.consumer hs

end Sections

/-! ## The contract of the consumers -/

section Contract

variable {T C : Type*}

/-- A consumer without references. -/
def Stream.Free {n : Nat} (s : Stream C n) (c : C) : Prop := s.refs c = 0 ∧ ∀ b, s.held c b = 0

/-- A consumer whose callback is running: it may use the channel of the event. -/
def System.Borrows (s : System T C) (c : C) : Prop := ∃ k, (s.calls k).callback = some c

/-- A consumer may use a channel that it has a reference of, or whose event it is handling. -/
def System.MayUse (s : System T C) (c : C) : Prop := s.Borrows c ∨ 0 < s.camera.stream.refs c

/-- A consumer has a reference of a buffer. -/
def System.HoldsBuffer (s : System T C) (c : C) (buffer : Nat) : Prop :=
  ∃ h : buffer < s.camera.blocks, 0 < s.camera.stream.held c ⟨buffer, h⟩

/-- What the consumers owe: they use only what they have a reference of, and they have
    dropped every reference when their callback of the stopping event returns.  A consumer
    that has references is subscribed to it. -/
def Contract (s : System T C) : Event T C → Prop
  | .consumer c .retain => s.MayUse c
  | .consumer c .release => 0 < s.camera.stream.refs c
  | .consumer c (.receive _ _) => s.MayUse c
  | .consumer c (.bufferRetain buffer) => s.HoldsBuffer c buffer
  | .consumer c (.bufferRelease buffer) => s.HoldsBuffer c buffer
  | .publish k subscribers =>
    (s.calls k).announcing = true →
      ∀ c, s.camera.stream.Free c ∨ c ∈ (publishSync subscribers).1
  | .callbackReturned k _ => ∀ c, (s.calls k).dropping = some c → s.camera.stream.Free c
  | _ => True

section Decide

variable [Fintype T] [Fintype C] [DecidableEq C]

instance {n : Nat} (s : Stream C n) (c : C) : Decidable (s.Free c) :=
  inferInstanceAs (Decidable (_ ∧ _))

instance (s : System T C) (c : C) : Decidable (s.Borrows c) :=
  decidable_of_iff ((∃ t, (s.calls (.thread t)).callback = some c) ∨
    (s.calls .shutdown).callback = some c)
    ⟨fun h => h.elim (fun ⟨t, ht⟩ => ⟨.thread t, ht⟩) fun h => ⟨.shutdown, h⟩,
      fun ⟨k, hk⟩ => match k, hk with
        | .thread t, hk => Or.inl ⟨t, hk⟩
        | .shutdown, hk => Or.inr hk⟩

instance (s : System T C) (c : C) : Decidable (s.MayUse c) :=
  inferInstanceAs (Decidable (_ ∨ _))

instance (s : System T C) (c : C) (buffer : Nat) : Decidable (s.HoldsBuffer c buffer) :=
  inferInstanceAs (Decidable (∃ _ : buffer < s.camera.blocks, _))

instance (s : System T C) : ∀ e, Decidable (Contract s e)
  | .consumer c .retain => inferInstanceAs (Decidable (s.MayUse c))
  | .consumer c .release => inferInstanceAs (Decidable (0 < s.camera.stream.refs c))
  | .consumer c (.receive _ _) => inferInstanceAs (Decidable (s.MayUse c))
  | .consumer c (.bufferRetain buffer) => inferInstanceAs (Decidable (s.HoldsBuffer c buffer))
  | .consumer c (.bufferRelease buffer) => inferInstanceAs (Decidable (s.HoldsBuffer c buffer))
  | .publish k subscribers => inferInstanceAs (Decidable ((s.calls k).announcing = true →
      ∀ c, s.camera.stream.Free c ∨ c ∈ (publishSync subscribers).1))
  | .callbackReturned k _ => inferInstanceAs (Decidable
      (∀ c, (s.calls k).dropping = some c → s.camera.stream.Free c))
  | .acquire _ _ => isTrue trivial
  | .start _ _ => isTrue trivial
  | .stop _ => isTrue trivial
  | .proceed _ => isTrue trivial
  | .wake _ _ => isTrue trivial
  | .release _ => isTrue trivial
  | .componentStop => isTrue trivial
  | .componentStopped => isTrue trivial
  | .deinit => isTrue trivial
  | .unregisterWake => isTrue trivial
  | .producer _ => isTrue trivial

end Decide

end Contract

/-! ## The machine -/

section Machine

variable {T C : Type*}

/-- No pool, no channel, no thread, and nobody with a reference. -/
structure Stream.Gone {n : Nat} (s : Stream C n) : Prop where
  thread : s.thread = none
  pool : s.pool = none
  channel : s.channel = none
  attached : s.attached = false
  refs : s.refs = fun _ => 0
  held : s.held = fun _ _ => 0

/-- The state after `camera_init`: the service is registered and nobody calls. -/
structure System.Fresh (s : System T C) : Prop where
  state : s.camera.state = .stopped
  streaming : s.camera.streaming = false
  gone : s.camera.stream.Gone
  used : s.slot.used = true
  accepting : s.slot.accepting = true
  referenceCount : s.slot.referenceCount = 0
  calls : s.calls = fun _ => .idle
  shutdown : s.shutdown = .running

/-- The state after the first `camera_init` of the program. -/
def System.initial (T C : Type*) : System T C where
  camera := {
    state := .stopped
    streaming := false
    config := { fps := 0, width := 0, height := 0, bufferCount := 0 }
    frames := {}
    blocks := 0
    stream := {}
    trace := [] }
  slot := { used := true, accepting := true }
  calls := fun _ => .idle
  shutdown := .running

theorem System.initial_fresh : (System.initial T C).Fresh :=
  ⟨rfl, rfl, ⟨rfl, rfl, rfl, rfl, rfl, rfl⟩, rfl, rfl, rfl, rfl, rfl⟩

/-- The camera under all interleavings, with consumers that keep their contract. -/
def cameraMachine (T C : Type*) [DecidableEq T] [DecidableEq C] (P : Platform) :
    Machine (System T C) (Event T C) :=
  (Machine.ofNext System.Fresh (next P)).restrict fun s e _ => Contract s e

end Machine

end Camera
end AppCore
