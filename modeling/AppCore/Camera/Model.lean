/-
  AppCore.Camera.Model

  The camera of `app/features/camera_mod.c`: its static variables, its producer thread
  and the sections of its functions.  A section runs from one lock or atomic operation to
  the next; all that `camera_real_start` does under `g_camera_mutex` is one section.

  The consumers' references of the channel and of the buffers, and `trace`, do not exist
  in the program: they record who may still use the objects and what the camera has done.
-/

import AppCore.Channel.Model

namespace AppCore
namespace Camera

open Channel

/-- `CAMERA_MAX_FRAME_SIZE`. -/
abbrev cameraMaxFrameSize : Nat := 64 * 1024 * 1024

/-- `CAMERA_MAX_BUFFER_COUNT`. -/
abbrev cameraMaxBufferCount : Nat := 64

/-- `CAMERA_MAX_FPS`. -/
abbrev cameraMaxFps : Nat := 240

/-- `CAMERA_EVENT_STREAM_STARTED`. -/
abbrev cameraEventStreamStarted : UInt32 := 0x04000001

/-- `CAMERA_EVENT_STREAM_STOPPING`. -/
abbrev cameraEventStreamStopping : UInt32 := 0x04000002

/-- `CAMERA_BUFFER_TYPE_VIDEO_FRAME`. -/
abbrev cameraBufferTypeVideoFrame : UInt32 := 0x04000001

/-- `CAMERA_BUFFER_FORMAT_VERSION`. -/
abbrev cameraBufferFormatVersion : UInt32 := 1

/-- `camera_state_t`. -/
inductive CameraState where
  | stopped
  | starting
  | running
  | stopping
  | error
deriving DecidableEq, Repr

/-- `camera_stream_config_t`. -/
structure CameraStreamConfig where
  fps : Nat
  width : Nat
  height : Nat
  bufferCount : Nat
deriving DecidableEq, Repr

/-- `camera_stream_event_t`; `channel` is false for `NULL`. -/
structure CameraStreamEvent where
  abiVersion : UInt32 := 1
  pixelFormat : UInt32 := 1
  generation : UInt64
  channel : Bool
  config : CameraStreamConfig
deriving DecidableEq, Repr

/-- `g_frame_sequence`, `g_dropped_frames` and `g_stream_generation`. -/
structure Frames where
  sequence : UInt64 := 0
  dropped : UInt64 := 0
  generation : UInt64 := 0
deriving DecidableEq, Repr

/-- What the camera has done, for the record. -/
inductive Obs where
  | poolCreated (blocks : Nat)
  | channelCreated
  | threadCreated
  | published (eventId : UInt32) (event : CameraStreamEvent)
  | channelClosed
  | threadJoined
  /-- The last reference of the channel was given up. -/
  | channelFreed
  /-- The pool was destroyed, with these reference counts of its buffers. -/
  | poolDestroyed (counts : List Nat)
deriving DecidableEq, Repr

/-- `calculate_frame_capacity`, with the capacity it stores; `config` is `none` for
    `NULL`. -/
def calculateFrameCapacity (P : Platform) (config : Option CameraStreamConfig) :
    Except SysErr Nat :=
  match config with
  | none => .error .invalidParam
  | some config =>
    if config.fps = 0 ∨ config.fps > cameraMaxFps ∨ config.width = 0 ∨ config.height = 0 ∨
        config.bufferCount < 2 ∨ config.bufferCount > cameraMaxBufferCount ∨
        config.width > P.sizeMax / config.height then .error .invalidParam
    else
      let pixels := config.width * config.height
      if pixels > P.sizeMax / 3 then .error .invalidParam
      else
        let outCapacity := pixels * 3 / 2
        if outCapacity = 0 ∨ outCapacity > cameraMaxFrameSize then .error .invalidParam
        else .ok outCapacity

/-! ## The producer thread -/

/-- Where the producer is, with its local variable `buffer`. -/
inductive ProducerLoop (n : Nat) where
  /-- At the condition of its loop. -/
  | condition
  /-- Before `sys_buffer_acquire`. -/
  | acquire
  /-- Before the retain of `sys_channel_send`. -/
  | send (buffer : Fin n)
  /-- Before the lock of `sys_channel_send`. -/
  | locked (buffer : Fin n)
  /-- In `sys_channel_send`, which will return `ret` after these releases. -/
  | unwind (buffer : Fin n) (ret : SysErr) (releases : List (Fin n))
  /-- Before its own `sys_buffer_release`; then it leaves the loop, or goes on. -/
  | release (buffer : Fin n) (leaves : Bool)
  /-- It has left its loop. -/
  | exited
deriving DecidableEq, Repr

/-- `struct sys_thread` of the producer. -/
structure Producer (n : Nat) where
  stopRequested : Bool := false
  loop : ProducerLoop n := .condition
deriving DecidableEq, Repr

/-- `g_camera_thread`, `g_camera_pool` and `g_camera_channel`, a pool of `n` buffers, with
    the objects they point to.  The channel lives on when the camera has given up its
    reference and a consumer has not. -/
structure Stream (C : Type*) (n : Nat) where
  thread : Option (Producer n) := none
  pool : Option (Pool n) := none
  channel : Option (SysChannel n) := none
  /-- `g_camera_channel` is not `NULL`. -/
  attached : Bool := false
  /-- The references of the channel each consumer has. -/
  refs : C → Nat := fun _ => 0
  /-- The references of the buffers each consumer has. -/
  held : C → Fin n → Nat := fun _ _ => 0

section Objects

variable {C : Type*} {n : Nat} (P : Platform)

/-- The producer is now at `loop`. -/
def Stream.goto (s : Stream C n) (loop : ProducerLoop n) : Stream C n :=
  { s with thread := s.thread.map fun p => { p with loop := loop } }

/-- One more dropped frame. -/
def Frames.drop (f : Frames) : Frames := { f with dropped := f.dropped + 1 }

/-- `snprintf(.., "CAMERA_FRAME_%06llu", g_frame_sequence)`. -/
def frameTextLength (sequence : UInt64) : Nat :=
  13 + max 6 (Nat.toDigits 10 sequence.toNat).length

/-- The fields of a buffer that the producer writes. -/
def describe (pool : Pool n) (b : Fin n) (size : Nat) (timestamp : UInt64) (f : Frames) :
    Pool n :=
  { pool with
    buffers := Function.update pool.buffers b { pool.buffers b with
      size := size
      sequence := f.sequence
      timestamp := timestamp
      type := cameraBufferTypeVideoFrame
      version := cameraBufferFormatVersion
      generation := f.generation } }

/-- The producer after `sys_channel_send` has returned `ret`. -/
def Stream.sendReturned (s : Stream C n) (f : Frames) (buffer : Fin n) (ret : SysErr) :
    Stream C n × Frames :=
  (s.goto (.release buffer (ret = .closed)), if ret ≠ .ok ∧ ret ≠ .closed then f.drop else f)

/-- The section of the producer after `sys_buffer_acquire` has handed out `buffer`. -/
def Stream.fill (s : Stream C n) (f : Frames) (pool : Pool n) (buffer : Fin n)
    (timestamp : UInt64) : Stream C n × Frames :=
  let length := frameTextLength f.sequence
  if length ≥ pool.blockCapacity then
    ({ s with pool := some pool }.goto (.release buffer true), f)
  else if length + 1 > pool.blockCapacity then
    -- `sys_buffer_set_size` fails
    ({ s with pool := some pool }.goto (.release buffer true), f)
  else
    ({ s with pool := some (describe pool buffer (length + 1) timestamp f) }.goto
      (.send buffer), { f with sequence := f.sequence + 1 })

/-- A section of `camera_producer` from where the thread is; `timestamp` is what the clock
    shows.  It sends with timeout 0, which never waits. -/
def producerSection (timestamp : UInt64) (s : Stream C n) (f : Frames) (p : Producer n) :
    Option (Stream C n × Frames) :=
  match p.loop with
  | .condition => some (s.goto (if p.stopRequested then .exited else .acquire), f)
  | .acquire =>
    match s.pool with
    | none => some (s.goto .condition, f.drop)
    | some pool =>
      let (_, pool, out) := sysBufferAcquire P true pool
      match out with
      | none => some ({ s with pool := some pool }.goto .condition, f.drop)
      | some buffer => some (s.fill f pool buffer timestamp)
  | .send buffer =>
    if s.attached = false then some (s.sendReturned f buffer .invalidParam)
    else
      match s.pool with
      | none => none
      | some pool =>
        let (ret, pool) := sysBufferRetain P (some buffer) pool
        if ret = .ok then some ({ s with pool := some pool }.goto (.locked buffer), f)
        else some ({ s with pool := some pool }.sendReturned f buffer ret)
  | .locked buffer =>
    match s.channel with
    | none => none
    | some ch =>
      match sendEnter P buffer 0 ch with
      | (ch, .leave ret releases, _) =>
        some ({ s with channel := some ch }.goto (.unwind buffer ret releases), f)
      | (_, .wait _, _) => none
  | .unwind buffer ret (x :: rest) =>
    some ({ s with pool := s.pool.map (sysBufferRelease P (some x)) }.goto
      (.unwind buffer ret rest), f)
  | .unwind buffer ret [] => some (s.sendReturned f buffer ret)
  | .release buffer leaves =>
    some ({ s with pool := s.pool.map (sysBufferRelease P (some buffer)) }.goto
      (if leaves then .exited else .condition), f)
  | .exited => none

/-- `camera_producer`, one section. -/
def cameraProducer (timestamp : UInt64) (s : Stream C n) (f : Frames) :
    Option (Stream C n × Frames) :=
  match s.thread with
  | none => none
  | some p => producerSection P timestamp s f p

/-! ## The channel and its consumers -/

/-- The releases that `sys_channel_release` makes when it has found the count at one.  Nobody
    else can reach the queue any more. -/
def releaseQueue (ch : SysChannel n) (pool : Pool n) : Pool n :=
  (List.range ch.count).foldl
    (fun pool i => sysBufferRelease P (ch.queue (ch.index P i)) pool) pool

/-- `sys_channel_release`, with what it leaves of the channel. -/
def sysChannelRelease (ch : SysChannel n) (pool : Option (Pool n)) :
    Option (SysChannel n) × Option (Pool n) :=
  let (references, ch) := channelFetchSub P ch
  if references ≠ 1 then (some ch, pool)
  else (none, pool.map (releaseQueue P ch))

/-- What a consumer does with a channel and its buffers. -/
inductive ConsumerAction where
  /-- `sys_channel_retain`. -/
  | retain
  /-- `sys_channel_release`. -/
  | release
  /-- `sys_channel_receive`, at its lock or after a wait that returned `ret`. -/
  | receive (timeoutMs ret : Int)
  /-- `sys_buffer_retain`. -/
  | bufferRetain (buffer : Nat)
  /-- `sys_buffer_release`. -/
  | bufferRelease (buffer : Nat)
deriving DecidableEq, Repr

variable [DecidableEq C]

/-- The references of buffers after a change of one count. -/
def Stream.setHeld (s : Stream C n) (c : C) (b : Fin n) (count : Nat) : Stream C n :=
  { s with held := Function.update s.held c (Function.update (s.held c) b count) }

/-- An action of the consumer `c`.  There is none on an object that does not exist. -/
def consume (c : C) (s : Stream C n) : ConsumerAction → Option (Stream C n)
  | .retain =>
    s.channel.map fun ch =>
      match channelRetainLoop P ch.referenceCount with
      | some _ => s
      | none =>
        { s with
          channel := some (channelExchange ch.referenceCount false ch).2.2
          refs := Function.update s.refs c (s.refs c + 1) }
  | .release =>
    s.channel.map fun ch =>
      let (channel, pool) := sysChannelRelease P ch s.pool
      { s with
        channel := channel
        pool := pool
        refs := Function.update s.refs c (s.refs c - 1) }
  | .receive timeoutMs ret =>
    s.channel.map fun ch =>
      match receiveWake P timeoutMs ret ch with
      | (ch, .leave _ (some b), _) => { s with channel := some ch }.setHeld c b (s.held c b + 1)
      | (ch, _, _) => { s with channel := some ch }
  | .bufferRetain buffer =>
    if h : buffer < n then
      s.pool.map fun pool =>
        let (ret, pool) := sysBufferRetain P (some ⟨buffer, h⟩) pool
        let s := { s with pool := some pool }
        if ret = .ok then s.setHeld c ⟨buffer, h⟩ (s.held c ⟨buffer, h⟩ + 1) else s
    else none
  | .bufferRelease buffer =>
    if h : buffer < n then
      s.pool.map fun pool =>
        { s with pool := some (sysBufferRelease P (some ⟨buffer, h⟩) pool) }.setHeld c ⟨buffer, h⟩
          (s.held c ⟨buffer, h⟩ - 1)
    else none

end Objects

/-! ## The static variables -/

/-- The static variables of the camera, and its record. -/
structure Globals (C : Type*) where
  state : CameraState
  streaming : Bool
  config : CameraStreamConfig
  frames : Frames
  /-- The number of buffers of the last pool that was asked for. -/
  blocks : Nat
  stream : Stream C blocks
  trace : List Obs

section Sections

variable {C : Type*} (P : Platform)

/-- What the camera has done, with `o` added. -/
def Globals.log (g : Globals C) (o : Obs) : Globals C := { g with trace := g.trace ++ [o] }

/-- The event the camera publishes. -/
def Globals.event (g : Globals C) : CameraStreamEvent where
  generation := g.frames.generation
  channel := g.stream.attached
  config := g.config

/-- `sys_thread_request_stop(g_camera_thread)`. -/
def Globals.requestStop (g : Globals C) : Globals C :=
  { g with stream := { g.stream with
      thread := g.stream.thread.map fun p => { p with stopRequested := true } } }

/-- `sys_channel_close(g_camera_channel)`. -/
def Globals.closeChannel (g : Globals C) : Globals C :=
  if g.stream.attached = false then g
  else
    Globals.log { g with stream := { g.stream with
      channel := g.stream.channel.map sysChannelClose } } .channelClosed

/-- `sys_channel_release(g_camera_channel)` and the assignment after it. -/
def Globals.releaseChannel (g : Globals C) : Globals C :=
  if g.stream.attached = false then g
  else
    match g.stream.channel with
    | none => g
    | some ch =>
      let (channel, pool) := sysChannelRelease P ch g.stream.pool
      let g := { g with stream := { g.stream with
        channel := channel, pool := pool, attached := false } }
      if channel.isNone then g.log .channelFreed else g

/-- `sys_buffer_pool_wait_idle(g_camera_pool, 2000)` up to its first wait; `none` when it
    waits. -/
def Globals.waitIdle (g : Globals C) : Option SysErr :=
  match g.stream.pool with
  | none => some .invalidParam
  | some pool => waitIdleLoop 2000 pool

/-- `sys_buffer_pool_wait_idle(g_camera_pool, 2000)` after a wait that returned `ret`. -/
def Globals.wakeIdle (ret : Int) (g : Globals C) : Option SysErr :=
  match g.stream.pool with
  | none => none
  | some pool => waitIdleWake 2000 ret pool

/-- `sys_buffer_pool_destroy(&g_camera_pool)`. -/
def Globals.destroyPool (g : Globals C) : SysErr × Globals C :=
  match g.stream.pool with
  | none => (.invalidParam, g)
  | some pool =>
    if sysBufferPoolDestroy pool ≠ .ok then (sysBufferPoolDestroy pool, g)
    else
      (.ok, Globals.log { g with stream := { g.stream with pool := none } }
        (.poolDestroyed ((List.finRange g.blocks).map pool.count)))

/-- The second half of `cleanup_stream_resources`, under the mutex.  No other thread has a
    reference of a buffer then, so a wait would time out. -/
def Globals.cleanupPool (g : Globals C) : SysErr × Globals C :=
  if g.stream.pool.isNone then (.ok, g)
  else
    match g.waitIdle with
    | some .ok => g.destroyPool
    | some ret => (ret, g)
    | none => (.timeout, g)

/-- `cleanup_stream_resources` under the mutex. -/
def cleanupStreamResources (g : Globals C) : SysErr × Globals C :=
  (g.releaseChannel P).cleanupPool

/-- The first step that fails when a pool or a channel is created. -/
inductive CreateFailure where
  | none
  | allocation
  | initialization
deriving DecidableEq, Repr

/-- The error of that step. -/
def CreateFailure.error : CreateFailure → SysErr
  | .none => .ok
  | .allocation => .noMemory
  | .initialization => .generic

/-- What the system answers while a stream is created. -/
structure CreateEnv where
  pool : CreateFailure := .none
  channel : CreateFailure := .none
  /-- `calloc` has found memory for the thread. -/
  threadMemory : Bool := true
  /-- What `pthread_create` has returned. -/
  threadCreate : Int := 0
deriving DecidableEq, Repr

/-- The result of `sys_thread_create("camera-producer", ..)`. -/
def sysThreadCreate (memory : Bool) (ret : Int) : SysErr :=
  if memory = false then .noMemory
  else if ret ≠ 0 then sysErrorFromErrno ret
  else .ok

/-- `create_stream_resources` from the assignment of `g_camera_config` on. -/
def createThread (config : CameraStreamConfig) (env : CreateEnv) (g : Globals C) :
    SysErr × Globals C :=
  let g := { g with
    config := config
    frames := { sequence := 0, dropped := 0, generation := g.frames.generation + 1 }
    streaming := true }
  let ret := sysThreadCreate env.threadMemory env.threadCreate
  if ret ≠ .ok then (ret, (cleanupStreamResources P { g with streaming := false }).2)
  else (.ok, Globals.log { g with stream := { g.stream with thread := some {} } } .threadCreated)

/-- `create_stream_resources` when it has a pool. -/
def createChannel (config : CameraStreamConfig) (env : CreateEnv) (g : Globals C) :
    SysErr × Globals C :=
  let (ret, channel) := sysChannelCreate P config.bufferCount true env.channel.error
  let g := { g with stream := { g.stream with channel := channel, attached := channel.isSome } }
  if ret ≠ .ok then (ret, (cleanupStreamResources P g).2)
  else createThread P config env (g.log .channelCreated)

/-- `create_stream_resources`. -/
def createStreamResources (config : CameraStreamConfig) (frameCapacity : Nat) (env : CreateEnv)
    (g : Globals C) : SysErr × Globals C :=
  let (ret, pool) := sysBufferPoolCreate P config.bufferCount frameCapacity true env.pool.error
  let g : Globals C := { g with blocks := config.bufferCount, stream := { pool := pool } }
  if ret ≠ .ok then (ret, (cleanupStreamResources P g).2)
  else createChannel P config env (g.log (.poolCreated config.bufferCount))

/-- How the section of a call under the mutex ends. -/
inductive Outcome where
  /-- It returns `ret`. -/
  | leave (ret : SysErr)
  /-- It goes on, with the event it has built. -/
  | goOn (event : CameraStreamEvent)
deriving DecidableEq, Repr

/-- `camera_real_start` under the mutex, with the frame capacity it has calculated. -/
def startLocked (config : CameraStreamConfig) (frameCapacity : Nat) (env : CreateEnv)
    (g : Globals C) : Outcome × Globals C :=
  if g.state ≠ .stopped ∨ g.stream.pool.isSome then (.leave .state, g)
  else
    let (ret, g) := createStreamResources P config frameCapacity env { g with state := .starting }
    if ret ≠ .ok then (.leave ret, { g with state := .stopped })
    else (.goOn g.event, g)

/-- `camera_real_start` up to the unlock. -/
def cameraRealStart (config : Option CameraStreamConfig) (env : CreateEnv) (g : Globals C) :
    Outcome × Globals C :=
  match config with
  | none => (.leave .invalidParam, g)
  | some config =>
    match calculateFrameCapacity P (some config) with
    | .error ret => (.leave ret, g)
    | .ok frameCapacity => startLocked P config frameCapacity env g

/-- `camera_real_stop` up to the unlock. -/
def cameraRealStop (g : Globals C) : Outcome × Globals C :=
  if g.state = .stopped then (.leave .ok, g)
  else if g.state ≠ .running ∨ g.stream.pool.isNone ∨ g.stream.attached = false then
    (.leave .busy, g)
  else (.goOn g.event, { g with state := .stopping })

end Sections

end Camera
end AppCore
