/-
  AppCore.Zlmedia.Model

  The stream consumer of `app/features/zlmedia_mod.c`: its static variables, its consumer
  threads, its callbacks of the two camera events and its component stop, over the camera
  with all its other users.

  The module is the consumer `none` of the camera and the others are the consumers `some d`.
  A section runs from one lock or atomic operation to the next.  Its log lines are left out.
-/

import AppCore.Camera.System
import AppCore.Event.System

namespace AppCore
namespace Zlmedia

open Channel Camera

/-- `CAMERA_STREAM_EVENT_ABI_VERSION`. -/
abbrev cameraStreamEventAbiVersion : UInt32 := 1

/-- `SYS_EVENT_ABI_VERSION`. -/
abbrev sysEventAbiVersion : UInt32 := 1

/-- `sizeof(camera_stream_event_t)` where pointers have eight bytes. -/
abbrev sizeofStreamEvent : Nat := 48

/-- Where `zlmedia_consumer` is, with its local variable `buffer`. -/
inductive ConsumerLoop where
  /-- At the condition of its loop. -/
  | condition
  /-- Before the lock of `sys_channel_receive`. -/
  | receive
  /-- In the wait of `sys_channel_receive`. -/
  | waiting
  /-- It has received `buffer`. -/
  | check (buffer : Nat)
  /-- Before `sys_buffer_release`. -/
  | release (buffer : Nat)
  /-- It has returned. -/
  | exited
deriving DecidableEq, Repr

/-- `struct sys_thread` of a consumer thread. -/
structure ConsumerThread where
  stopRequested : Bool := false
  loop : ConsumerLoop := .condition
deriving DecidableEq, Repr

/-- The static variables; `channel` is false for `NULL`. -/
structure Globals where
  running : Bool := false
  thread : Option Nat := none
  channel : Bool := false
  port : Nat := 8554
  consumedFrames : UInt64 := 0
  streamGeneration : UInt64 := 0
deriving DecidableEq, Repr

/-- Where a call is that detaches the module, with the local variables of `detach_stream`. -/
inductive DetachState where
  | idle
  /-- Past the first section of `detach_stream`. -/
  | taken (thread : Option Nat) (channel : Bool)
  /-- In `sys_thread_join`. -/
  | join (thread : Nat) (channel : Bool)
  /-- The join has failed with `ret`. -/
  | joinFailed (thread : Nat) (channel : Bool) (ret : SysErr)
  /-- Before `sys_channel_release`. -/
  | release (channel : Bool)
  /-- It will return `ret`. -/
  | done (ret : SysErr)
deriving DecidableEq, Repr

/-- `sys_event_t` as the bus hands it to a callback. -/
structure Notice where
  abiVersion : UInt32 := sysEventAbiVersion
  size : Nat := sizeofStreamEvent
  data : Option CameraStreamEvent
deriving DecidableEq, Repr

/-- What the camera publishes. -/
def published (event : CameraStreamEvent) : Notice where
  data := some event

/-- The first test of both callbacks. -/
def Notice.check (notice : Notice) : Except SysErr CameraStreamEvent :=
  match notice.data with
  | none => .error .invalidParam
  | some event =>
    if notice.abiVersion ≠ sysEventAbiVersion ∨ notice.size ≠ sizeofStreamEvent then
      .error .invalidParam
    else .ok event

/-- The camera with everybody who uses it, and the module.  `threads` are the objects of the
    consumer threads; `detaches none` is `zlmedia_stop`, and `detaches (some k)` the module's
    callback in a call of the camera. -/
structure Media (T D : Type*) where
  camera : Camera.System T (Option D)
  globals : Globals
  threads : Nat → Option ConsumerThread
  detaches : Option (Caller T) → DetachState

/-- The atomic steps. -/
inductive MediaEvent (T D : Type*) where
  /-- A step of the camera or of another user. -/
  | camera (e : Camera.Event T (Option D))
  /-- `on_stream_started`; `thread` is the memory `calloc` finds, if it finds any, and `create`
      the answer of `pthread_create`. -/
  | started (k : Caller T) (thread : Nat) (memory : Bool) (create : Int)
  /-- `on_stream_stopping`, up to the end of the first section of `detach_stream`. -/
  | stopping (k : Caller T)
  /-- The module's callback returns. -/
  | callbackReturned (k : Caller T)
  /-- `zlmedia_stop`, up to the end of the first section of `detach_stream`. -/
  | stop
  | stopReturned
  /-- The next section of `detach_stream`; `ret` is the answer of `pthread_join`. -/
  | detach (j : Option (Caller T)) (ret : Int)
  /-- A section of a consumer thread; `ret` is the answer of a wait. -/
  | consumer (thread : Nat) (ret : Int)
  /-- `zlmedia_set_port`. -/
  | setPort (port : Nat)
deriving DecidableEq, Repr

/-! ## The control interface -/

/-- `zlmedia_real_set_port`. -/
def zlmediaRealSetPort (port : Nat) (g : Globals) : SysErr × Globals :=
  if port = 0 ∨ port > 65535 then (.invalidParam, g) else (.ok, { g with port := port })

/-- `zlmedia_real_get_streaming`. -/
def zlmediaRealGetStreaming (g : Globals) : SysErr × Bool := (.ok, g.running)

section Step

variable {T D : Type*} (P : Platform) [DecidableEq T] [DecidableEq D]

/-- The module does something with the channel or a buffer. -/
def Media.act (s : Media T D) (action : ConsumerAction) : Option (Media T D) :=
  (Camera.next P s.camera (.consumer none action)).map fun camera => { s with camera := camera }

/-- The call `j` is now at `st`. -/
def Media.setDetach (s : Media T D) (j : Option (Caller T)) (st : DetachState) : Media T D :=
  { s with detaches := Function.update s.detaches j st }

/-- The consumer thread is now at `loop`. -/
def Media.goto (s : Media T D) (thread : Nat) (loop : ConsumerLoop) : Media T D :=
  { s with
    threads := Function.update s.threads thread
      ((s.threads thread).map fun t => { t with loop := loop }) }

/-! ## The consumer thread -/

/-- `zlmedia_consumer` after a section of `sys_channel_receive`. -/
def afterReceive {n : Nat} : ReceiveOutcome n → ConsumerLoop
  | .wait => .waiting
  | .leave ret out =>
    if ret = .timeout then .condition
    else if ret = .closed then .exited
    else if ret ≠ .ok then .exited
    else
      match out with
      | some b => .check b.val
      | none => .exited

/-- A section of `sys_channel_receive(channel, &buffer, 200)`. -/
def Media.receiveSection (s : Media T D) (thread : Nat) (ret : Int) : Option (Media T D) :=
  match s.camera.camera.stream.channel with
  | none => none
  | some ch =>
    (s.act P (.receive 200 ret)).map fun s' =>
      s'.goto thread (afterReceive (receiveWake P 200 ret ch).2.1)

/-- The fields of a buffer that are those of a frame of the attached stream. -/
def Globals.accepts (g : Globals) (b : Buffer) : Bool :=
  ¬ (b.type ≠ cameraBufferTypeVideoFrame ∨ b.version ≠ cameraBufferFormatVersion ∨
    b.generation ≠ g.streamGeneration)

/-- The test of a received buffer. -/
def Media.checkSection (s : Media T D) (thread buffer : Nat) : Option (Media T D) :=
  if h : buffer < s.camera.camera.blocks then
    s.camera.camera.stream.pool.map fun pool =>
      if s.globals.accepts (pool.buffers ⟨buffer, h⟩) then
        { s.goto thread (.release buffer) with
          globals := { s.globals with consumedFrames := s.globals.consumedFrames + 1 } }
      else s.goto thread (.release buffer)
  else none

/-- `zlmedia_consumer`, one section. -/
def zlmediaConsumer (s : Media T D) (thread : Nat) (ret : Int) : Option (Media T D) :=
  match s.threads thread with
  | none => none
  | some t =>
    match t.loop with
    | .condition => some (s.goto thread (if t.stopRequested then .exited else .receive))
    | .receive => s.receiveSection P thread 0
    | .waiting => s.receiveSection P thread ret
    | .check buffer => s.checkSection thread buffer
    | .release buffer => (s.act P (.bufferRelease buffer)).map fun s' => s'.goto thread .condition
    | .exited => none

/-! ## Detaching from a stream -/

/-- The first section of `detach_stream`. -/
def detachStream (s : Media T D) (j : Option (Caller T)) : Media T D :=
  { s.setDetach j (.taken s.globals.thread s.globals.channel) with
    globals := { s.globals with running := false, thread := none, channel := false } }

/-- `sys_thread_request_stop`. -/
def Media.requestStop (s : Media T D) (thread : Nat) : Media T D :=
  { s with
    threads := Function.update s.threads thread
      ((s.threads thread).map fun t => { t with stopRequested := true }) }

/-- The next section of `detach_stream`. -/
def detachSection (s : Media T D) (j : Option (Caller T)) (ret : Int) : Option (Media T D) :=
  match s.detaches j with
  | .taken (some thread) channel => some ((s.requestStop thread).setDetach j (.join thread channel))
  | .taken none channel => some (s.setDetach j (.release channel))
  | .join thread channel =>
    if ret ≠ 0 then some (s.setDetach j (.joinFailed thread channel (Event.joinError ret)))
    else
      match s.threads thread with
      | none => none
      | some t =>
        -- `pthread_join` waits for the end of the thread
        if t.loop = .exited then
          some ({ s with threads := Function.update s.threads thread none }.setDetach j
            (.release channel))
        else none
  | .joinFailed thread channel ret =>
    some ({ s with globals := { s.globals with
      thread := some thread, channel := channel } }.setDetach j (.done ret))
  | .release channel =>
    if channel then (s.act P .release).map fun s' => s'.setDetach j (.done .ok)
    else some (s.setDetach j (.done .ok))
  | .done _ => none
  | .idle => none

/-! ## The callbacks -/

/-- `on_stream_started` when it has a reference of the channel. -/
def createConsumer (s : Media T D) (event : CameraStreamEvent) (thread : Nat) (memory : Bool)
    (create : Int) : Option (SysErr × Media T D) :=
  let g := { s.globals with
    channel := true, consumedFrames := 0, streamGeneration := event.generation, running := true }
  let ret := sysThreadCreate memory create
  if ret ≠ .ok then
    (Media.act P { s with globals := { g with running := false, channel := false } } .release).map
      fun s' => (ret, s')
  else
    some (.ok, { s with
      globals := { g with thread := some thread }
      threads := Function.update s.threads thread (some {}) })

/-- `on_stream_started`. -/
def onStreamStarted (s : Media T D) (notice : Notice) (thread : Nat) (memory : Bool)
    (create : Int) : Option (SysErr × Media T D) :=
  match notice.check with
  | .error ret => some (ret, s)
  | .ok event =>
    if event.abiVersion ≠ cameraStreamEventAbiVersion then some (.abiMismatch, s)
    else if s.globals.thread.isSome then some (.state, s)
    else if event.channel = false then some (.invalidParam, s)
    else
      match s.camera.camera.stream.channel with
      | none => none
      | some ch =>
        match channelRetainLoop P ch.referenceCount with
        | some ret => some (ret, s)
        | none => (s.act P .retain).bind fun s' => createConsumer P s' event thread memory create

/-- `on_stream_stopping`, up to the end of the first section of `detach_stream`. -/
def onStreamStopping (s : Media T D) (k : Caller T) (notice : Notice) : Media T D :=
  match notice.check with
  | .error ret => s.setDetach (some k) (.done ret)
  | .ok _ => detachStream s (some k)

/-! ## The steps -/

/-- A step of the camera that is not one of the module. -/
def Outside (s : Media T D) : Camera.Event T (Option D) → Prop
  | .consumer c _ => c ≠ none
  | .callbackReturned k _ => (s.camera.calls k).callback ≠ some none
  | _ => True

instance (s : Media T D) : ∀ e, Decidable (Outside s e)
  | .consumer c _ => inferInstanceAs (Decidable (c ≠ none))
  | .callbackReturned k _ =>
    inferInstanceAs (Decidable ((s.camera.calls k).callback ≠ some none))
  | .acquire _ _ => isTrue trivial
  | .start _ _ => isTrue trivial
  | .stop _ => isTrue trivial
  | .publish _ _ => isTrue trivial
  | .proceed _ => isTrue trivial
  | .wake _ _ => isTrue trivial
  | .release _ => isTrue trivial
  | .componentStop => isTrue trivial
  | .componentStopped => isTrue trivial
  | .deinit => isTrue trivial
  | .unregisterWake => isTrue trivial
  | .producer _ => isTrue trivial

/-- One atomic step. -/
def next (s : Media T D) : MediaEvent T D → Option (Media T D)
  | .camera e =>
    if Outside s e then
      (Camera.next P s.camera e).map fun camera => { s with camera := camera }
    else none
  | .started k thread memory create =>
    match s.camera.calls k with
    | .starting event (none :: _) _ =>
      if s.detaches (some k) = .idle ∧ s.threads thread = none then
        (onStreamStarted P s (published event) thread memory create).map fun r =>
          r.2.setDetach (some k) (.done r.1)
      else none
    | _ => none
  | .stopping k =>
    match s.camera.calls k with
    | .teardown _ event (.notify (none :: _) _) =>
      if s.detaches (some k) = .idle then some (onStreamStopping s k (published event)) else none
    | _ => none
  | .callbackReturned k =>
    match s.detaches (some k) with
    | .done ret =>
      (Camera.next P s.camera (.callbackReturned k ret)).map fun camera =>
        Media.setDetach { s with camera := camera } (some k) .idle
    | _ => none
  | .stop => if s.detaches none = .idle then some (detachStream s none) else none
  | .stopReturned =>
    match s.detaches none with
    | .done _ => some (s.setDetach none .idle)
    | _ => none
  | .detach j ret => detachSection P s j ret
  | .consumer thread ret => zlmediaConsumer P s thread ret
  | .setPort port => some { s with globals := (zlmediaRealSetPort port s.globals).2 }

/-! ## The steps, one by one -/

/-- The static variables of a module that has just taken a reference of the channel. -/
def Globals.opened (g : Globals) (event : CameraStreamEvent) : Globals :=
  { g with
    channel := true, consumedFrames := 0, streamGeneration := event.generation, running := true }

/-- The module is asked in its callback to attach itself, in a call that has not asked it yet. -/
structure Media.Asked (s : Media T D) (k : Caller T) (event : CameraStreamEvent) : Prop where
  calls : ∃ rest firstError, s.camera.calls k = .starting event (none :: rest) firstError
  idle : s.detaches (some k) = .idle

/-- The steps, one by one, with what each finds. -/
inductive MediaStep (s : Media T D) : MediaEvent T D → Media T D → Prop
  | camera {e camera} : Outside s e → Camera.next P s.camera e = some camera →
      MediaStep s (.camera e) { s with camera := camera }
  /-- The module does not attach itself. -/
  | refused {k event thread memory create ret} : s.Asked k event →
      MediaStep s (.started k thread memory create) (s.setDetach (some k) (.done ret))
  /-- There is no thread for it. -/
  | failed {k event thread memory create ret ch s₁ s₂} : s.Asked k event →
      s.globals.thread = none → s.camera.camera.stream.channel = some ch →
      channelRetainLoop P ch.referenceCount = none → s.act P .retain = some s₁ →
      Media.act P { s₁ with
        globals := { s₁.globals.opened event with running := false, channel := false } } .release =
          some s₂ →
      MediaStep s (.started k thread memory create) (s₂.setDetach (some k) (.done ret))
  | attached {k event thread memory create ch s₁} : s.Asked k event →
      s.globals.thread = none → s.threads thread = none →
      s.camera.camera.stream.channel = some ch →
      channelRetainLoop P ch.referenceCount = none → s.act P .retain = some s₁ →
      MediaStep s (.started k thread memory create)
        (Media.setDetach { s₁ with
          globals := { s₁.globals.opened event with thread := some thread }
          threads := Function.update s₁.threads thread (some {}) } (some k) (.done .ok))
  | stopping {k t event rest firstError} :
      s.camera.calls k = .teardown t event (.notify (none :: rest) firstError) →
      s.detaches (some k) = .idle → MediaStep s (.stopping k) (detachStream s (some k))
  | callbackReturned {k ret camera} : s.detaches (some k) = .done ret →
      Camera.next P s.camera (.callbackReturned k ret) = some camera →
      MediaStep s (.callbackReturned k) (Media.setDetach { s with camera := camera } (some k) .idle)
  | stop : s.detaches none = .idle → MediaStep s .stop (detachStream s none)
  | stopReturned {ret} : s.detaches none = .done ret →
      MediaStep s .stopReturned (s.setDetach none .idle)
  | requested {j ret thread channel} : s.detaches j = .taken (some thread) channel →
      MediaStep s (.detach j ret) ((s.requestStop thread).setDetach j (.join thread channel))
  | threadless {j ret channel} : s.detaches j = .taken none channel →
      MediaStep s (.detach j ret) (s.setDetach j (.release channel))
  | joinFailed {j ret thread channel} : s.detaches j = .join thread channel → ret ≠ 0 →
      MediaStep s (.detach j ret)
        (s.setDetach j (.joinFailed thread channel (Event.joinError ret)))
  | joined {j thread channel t} : s.detaches j = .join thread channel →
      s.threads thread = some t → t.loop = .exited →
      MediaStep s (.detach j 0)
        (Media.setDetach { s with threads := Function.update s.threads thread none } j
          (.release channel))
  | restored {j ret thread channel joinRet} : s.detaches j = .joinFailed thread channel joinRet →
      MediaStep s (.detach j ret)
        (Media.setDetach { s with
          globals := { s.globals with thread := some thread, channel := channel } } j
          (.done joinRet))
  | released {j ret s₁} : s.detaches j = .release true → s.act P .release = some s₁ →
      MediaStep s (.detach j ret) (s₁.setDetach j (.done .ok))
  | unreferenced {j ret} : s.detaches j = .release false →
      MediaStep s (.detach j ret) (s.setDetach j (.done .ok))
  | looped {thread ret t} : s.threads thread = some t → t.loop = .condition →
      MediaStep s (.consumer thread ret)
        (s.goto thread (if t.stopRequested then .exited else .receive))
  | received {thread ret t ch waited s₁} : s.threads thread = some t →
      t.loop = .receive ∧ waited = 0 ∨ t.loop = .waiting ∧ waited = ret →
      s.camera.camera.stream.channel = some ch → s.act P (.receive 200 waited) = some s₁ →
      MediaStep s (.consumer thread ret)
        (s₁.goto thread (afterReceive (receiveWake P 200 waited ch).2.1))
  /-- The buffer is a frame of the stream the module is attached to, or it is not. -/
  | checked {thread ret t buffer consumed} : s.threads thread = some t → t.loop = .check buffer →
      MediaStep s (.consumer thread ret)
        { s.goto thread (.release buffer) with
          globals := { s.globals with consumedFrames := consumed } }
  | gaveBack {thread ret t buffer s₁} : s.threads thread = some t → t.loop = .release buffer →
      s.act P (.bufferRelease buffer) = some s₁ →
      MediaStep s (.consumer thread ret) (s₁.goto thread .condition)
  | setPort {port} :
      MediaStep s (.setPort port) { s with globals := (zlmediaRealSetPort port s.globals).2 }

section Cases

variable {P : Platform} {s s' : Media T D}

theorem started_cases {k : Caller T} {event : CameraStreamEvent} {thread : Nat} {memory : Bool}
    {create : Int} {r : SysErr × Media T D} (hk : s.Asked k event)
    (hthread : s.threads thread = none)
    (h : onStreamStarted P s (published event) thread memory create = some r) :
    MediaStep P s (.started k thread memory create) (r.2.setDetach (some k) (.done r.1)) := by
  have hcheck : (published event).check = .ok event := rfl
  simp only [onStreamStarted, hcheck] at h
  split at h
  · obtain rfl := Option.some.inj h
    exact .refused hk
  split at h
  · obtain rfl := Option.some.inj h
    exact .refused hk
  rename_i hnone
  split at h
  · obtain rfl := Option.some.inj h
    exact .refused hk
  have hnone : s.globals.thread = none := by
    cases hg : s.globals.thread with
    | none => rfl
    | some θ =>
        rw [hg] at hnone
        exact absurd rfl hnone
  split at h
  · cases h
  rename_i ch hch
  split at h
  · obtain rfl := Option.some.inj h
    exact .refused hk
  rename_i hloop
  obtain ⟨s₁, hact, hcreate⟩ := Option.bind_eq_some_iff.mp h
  simp only [createConsumer] at hcreate
  split at hcreate
  · obtain ⟨s₂, hrelease, rfl⟩ := Option.map_eq_some_iff.mp hcreate
    exact .failed hk hnone hch hloop hact hrelease
  · obtain rfl := Option.some.inj hcreate
    exact .attached hk hnone hthread hch hloop hact

theorem detachSection_cases {j : Option (Caller T)} {ret : Int}
    (h : detachSection P s j ret = some s') : MediaStep P s (.detach j ret) s' := by
  cases hj : s.detaches j with
  | idle =>
      simp only [detachSection, hj] at h
      cases h
  | taken thread channel =>
      cases thread with
      | none =>
          simp only [detachSection, hj] at h
          obtain rfl := Option.some.inj h
          exact .threadless hj
      | some thread =>
          simp only [detachSection, hj] at h
          obtain rfl := Option.some.inj h
          exact .requested hj
  | join thread channel =>
      simp only [detachSection, hj] at h
      split at h
      · rename_i hret
        obtain rfl := Option.some.inj h
        exact .joinFailed hj hret
      · rename_i hret
        obtain rfl := not_not.mp hret
        split at h
        · cases h
        · rename_i t ht
          split at h
          · rename_i hexited
            obtain rfl := Option.some.inj h
            exact .joined hj ht hexited
          · cases h
  | joinFailed thread channel joinRet =>
      simp only [detachSection, hj] at h
      obtain rfl := Option.some.inj h
      exact .restored hj
  | release channel =>
      simp only [detachSection, hj] at h
      cases channel with
      | true =>
          obtain ⟨s₁, hact, rfl⟩ := Option.map_eq_some_iff.mp h
          exact .released hj hact
      | false =>
          obtain rfl := Option.some.inj h
          exact .unreferenced hj
  | done ret =>
      simp only [detachSection, hj] at h
      cases h

theorem zlmediaConsumer_cases {thread : Nat} {ret : Int}
    (h : zlmediaConsumer P s thread ret = some s') : MediaStep P s (.consumer thread ret) s' := by
  have hreceive : ∀ {t waited}, s.threads thread = some t →
      t.loop = .receive ∧ waited = 0 ∨ t.loop = .waiting ∧ waited = ret →
      s.receiveSection P thread waited = some s' →
      MediaStep P s (.consumer thread ret) s' := by
    intro t waited ht hloop hr
    simp only [Media.receiveSection] at hr
    split at hr
    · cases hr
    · rename_i ch hch
      obtain ⟨s₁, hact, rfl⟩ := Option.map_eq_some_iff.mp hr
      exact .received ht hloop hch hact
  cases ht : s.threads thread with
  | none =>
      simp only [zlmediaConsumer, ht] at h
      cases h
  | some t =>
      cases hloop : t.loop with
      | condition =>
          simp only [zlmediaConsumer, ht, hloop] at h
          obtain rfl := Option.some.inj h
          exact .looped ht hloop
      | receive =>
          simp only [zlmediaConsumer, ht, hloop] at h
          exact hreceive ht (Or.inl ⟨hloop, rfl⟩) h
      | waiting =>
          simp only [zlmediaConsumer, ht, hloop] at h
          exact hreceive ht (Or.inr ⟨hloop, rfl⟩) h
      | check buffer =>
          simp only [zlmediaConsumer, ht, hloop, Media.checkSection] at h
          split at h
          · obtain ⟨pool, -, hs⟩ := Option.map_eq_some_iff.mp h
            split at hs
            · obtain rfl := hs
              exact .checked ht hloop
            · obtain rfl := hs
              have hsame : MediaStep P s (.consumer thread ret)
                  { s.goto thread (.release buffer) with
                    globals := { s.globals with
                      consumedFrames := s.globals.consumedFrames } } := .checked ht hloop
              exact hsame
          · cases h
      | release buffer =>
          simp only [zlmediaConsumer, ht, hloop] at h
          obtain ⟨s₁, hact, rfl⟩ := Option.map_eq_some_iff.mp h
          exact .gaveBack ht hloop hact
      | exited =>
          simp only [zlmediaConsumer, ht, hloop] at h
          cases h

/-- `next` does nothing else. -/
theorem next_cases {e : MediaEvent T D} (h : next P s e = some s') : MediaStep P s e s' := by
  cases e with
  | camera e =>
      simp only [next] at h
      split at h
      · rename_i houtside
        obtain ⟨camera, hnext, rfl⟩ := Option.map_eq_some_iff.mp h
        exact .camera houtside hnext
      · cases h
  | started k thread memory create =>
      simp only [next] at h
      split at h
      · rename_i event rest firstError hk
        split at h
        · rename_i hfree
          obtain ⟨r, hr, rfl⟩ := Option.map_eq_some_iff.mp h
          exact started_cases ⟨⟨rest, firstError, hk⟩, hfree.1⟩ hfree.2 hr
        · cases h
      · cases h
  | stopping k =>
      simp only [next] at h
      split at h
      · rename_i t event rest firstError hk
        split at h
        · rename_i hidle
          obtain rfl := Option.some.inj h
          exact .stopping hk hidle
        · cases h
      · cases h
  | callbackReturned k =>
      simp only [next] at h
      split at h
      · rename_i ret hj
        obtain ⟨camera, hnext, rfl⟩ := Option.map_eq_some_iff.mp h
        exact .callbackReturned hj hnext
      · cases h
  | stop =>
      simp only [next] at h
      split at h
      · rename_i hidle
        obtain rfl := Option.some.inj h
        exact .stop hidle
      · cases h
  | stopReturned =>
      simp only [next] at h
      split at h
      · rename_i ret hj
        obtain rfl := Option.some.inj h
        exact .stopReturned hj
      · cases h
  | detach j ret => exact detachSection_cases h
  | consumer thread ret => exact zlmediaConsumer_cases h
  | setPort port =>
      obtain rfl := Option.some.inj h
      exact .setPort

end Cases

end Step

end Zlmedia
end AppCore
