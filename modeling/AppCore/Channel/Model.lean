/-
  AppCore.Channel.Model

  The bounded channel of `core/sys_channel.c`.  Each function below is one critical
  section of the channel mutex: `sys_channel_send` and `sys_channel_receive` are cut
  at their waits, so `sendEnter` and `receiveLoop` run from the lock to the first
  wait or to the unlock, and `sendWake` and `receiveWake` from a wait that returned.
  The releases a send makes after the unlock are part of its outcome.

  The lists of `Fifo.Obs` the functions return are not part of the program: they
  record what was put into the queue and taken out of it.
-/

import AppCore.Channel.Buffer
import AppCore.Lib.Ring
import AppCore.Lib.Fifo

namespace AppCore
namespace Channel

/-- `SYS_CHANNEL_FULL_FAIL`. -/
abbrev fullFail : Nat := 0

/-- `SYS_CHANNEL_FULL_DROP_OLDEST`. -/
abbrev fullDropOldest : Nat := 1

/-- `sys_channel_config_t`. -/
structure ChannelConfig where
  capacity : Nat
  fullPolicy : Nat
deriving DecidableEq, Repr

/-- `sys_channel_stats_t`; `current_depth` is only filled in for the reader. -/
structure ChannelStats where
  sentCount : UInt64 := 0
  receivedCount : UInt64 := 0
  droppedCount : UInt64 := 0
  fullCount : UInt64 := 0
  timeoutCount : UInt64 := 0
  highWatermark : Nat := 0
  capacity : Nat := 0
deriving DecidableEq, Repr

/-- `struct sys_channel`.  The queue is an array of `capacity` buffer pointers. -/
structure SysChannel (n : Nat) where
  queue : Nat → Option (Fin n)
  capacity : Nat
  head : Nat
  count : Nat
  closed : Bool
  fullPolicy : Nat
  stats : ChannelStats
  referenceCount : Nat

/-- How a critical section of `sys_channel_send` ends. -/
inductive SendOutcome (n : Nat) where
  /-- It waits, with the buffer it has dropped so far. -/
  | wait (dropped : Option (Fin n))
  /-- It returns `ret` after releasing the buffers. -/
  | leave (ret : SysErr) (releases : List (Fin n))
deriving DecidableEq, Repr

/-- How a critical section of `sys_channel_receive` ends. -/
inductive ReceiveOutcome (n : Nat) where
  | wait
  | leave (ret : SysErr) (out : Option (Fin n))
deriving DecidableEq, Repr

variable {n : Nat}

/-- `sys_channel_create_with_config`.  `environment` is the error of the first
    allocation or initialization that fails. -/
def sysChannelCreateWithConfig (P : Platform) (config : Option ChannelConfig)
    (outChannel : Bool) (environment : SysErr) : SysErr × Option (SysChannel n) :=
  if outChannel = false then (.invalidParam, none)
  else
    match config with
    | none => (.invalidParam, none)
    | some config =>
      if config.capacity = 0 ∨ config.capacity > P.sizeMax / P.pointerSize ∨
          config.fullPolicy > fullDropOldest then (.invalidParam, none)
      else if environment ≠ .ok then (environment, none)
      else
        (.ok, some {
          queue := fun _ => none
          capacity := config.capacity
          head := 0
          count := 0
          closed := false
          fullPolicy := config.fullPolicy
          stats := { capacity := config.capacity }
          referenceCount := 1 })

/-- `sys_channel_create`. -/
def sysChannelCreate (P : Platform) (capacity : Nat) (outChannel : Bool)
    (environment : SysErr) : SysErr × Option (SysChannel n) :=
  sysChannelCreateWithConfig P (some ⟨capacity, fullFail⟩) outChannel environment

/-- `(channel->head + i) % channel->capacity`. -/
def SysChannel.index (P : Platform) (ch : SysChannel n) (i : Nat) : Nat :=
  P.wrap (ch.head + i) % ch.capacity

/-- Take the buffer at the head out of the queue. -/
def SysChannel.takeHead (P : Platform) (ch : SysChannel n) : Option (Fin n) × SysChannel n :=
  (ch.queue ch.head,
    { ch with
      queue := Function.update ch.queue ch.head none
      head := ch.index P 1
      count := ch.count - 1 })

/-- `sys_channel_close` on a channel. -/
def sysChannelClose (ch : SysChannel n) : SysChannel n := { ch with closed := true }

/-- `wait_for_channel_state` up to its wait; `none` when it waits. -/
def waitForChannelState (timeoutMs : Int) (immediateError : SysErr) : Option SysErr :=
  if timeoutMs = 0 then some immediateError else none

/-- `wait_for_channel_state` after a wait that returned `ret`. -/
def waitResult (ret : Int) : SysErr :=
  if ret = 0 then .ok else waitError ret

/-! ## `sys_channel_send` -/

/-- The error exit of the loop of `sys_channel_send`. -/
def sendWaitFailed (ret : SysErr) (buffer : Fin n) (ch : SysChannel n) :
    SysChannel n × SendOutcome n :=
  let ch := if ret = .timeout then
      { ch with stats := { ch.stats with timeoutCount := ch.stats.timeoutCount + 1 } }
    else ch
  (ch, .leave ret [buffer])

/-- The loop of `sys_channel_send` and what follows it. -/
def sendLoop (P : Platform) (buffer : Fin n) (dropped : Option (Fin n)) (timeoutMs : Int)
    (ch : SysChannel n) : SysChannel n × SendOutcome n × List (Fifo.Obs (Fin n)) :=
  if ch.count = ch.capacity ∧ ch.closed = false then
    match waitForChannelState timeoutMs .queueFull with
    | none => (ch, .wait dropped, [])
    | some ret =>
      let (ch, outcome) := sendWaitFailed ret buffer ch
      (ch, outcome, [])
  else if ch.closed = true then (ch, .leave .closed (buffer :: dropped.toList), [])
  else
    let count := ch.count + 1
    ({ ch with
        queue := Function.update ch.queue (ch.index P ch.count) (some buffer)
        count := count
        stats := { ch.stats with
          sentCount := ch.stats.sentCount + 1
          highWatermark :=
            if count > ch.stats.highWatermark then count else ch.stats.highWatermark } },
      .leave .ok dropped.toList, [.accepted buffer])

/-- `sys_channel_send` from the lock of the channel mutex on. -/
def sendEnter (P : Platform) (buffer : Fin n) (timeoutMs : Int) (ch : SysChannel n) :
    SysChannel n × SendOutcome n × List (Fifo.Obs (Fin n)) :=
  let fullObserved := ch.count = ch.capacity
  let ch := if fullObserved then
      { ch with stats := { ch.stats with fullCount := ch.stats.fullCount + 1 } }
    else ch
  if fullObserved ∧ ch.fullPolicy = fullDropOldest ∧ ch.closed = false then
    let (dropped, ch) := ch.takeHead P
    let ch := { ch with
      stats := { ch.stats with droppedCount := ch.stats.droppedCount + 1 } }
    let (ch, outcome, obs) := sendLoop P buffer dropped timeoutMs ch
    (ch, outcome, dropped.toList.map Fifo.Obs.dropped ++ obs)
  else sendLoop P buffer none timeoutMs ch

/-- `sys_channel_send` after a wait that returned `ret`. -/
def sendWake (P : Platform) (buffer : Fin n) (dropped : Option (Fin n)) (timeoutMs ret : Int)
    (ch : SysChannel n) : SysChannel n × SendOutcome n × List (Fifo.Obs (Fin n)) :=
  if waitResult ret ≠ .ok then
    let (ch, outcome) := sendWaitFailed (waitResult ret) buffer ch
    (ch, outcome, [])
  else sendLoop P buffer dropped timeoutMs ch

/-! ## `sys_channel_receive` -/

/-- The error exit of the loop of `sys_channel_receive`. -/
def receiveWaitFailed (ret : SysErr) (ch : SysChannel n) : SysChannel n × ReceiveOutcome n :=
  ({ ch with stats := { ch.stats with timeoutCount := ch.stats.timeoutCount + 1 } },
    .leave ret none)

/-- The loop of `sys_channel_receive` and what follows it. -/
def receiveLoop (P : Platform) (timeoutMs : Int) (ch : SysChannel n) :
    SysChannel n × ReceiveOutcome n × List (Fifo.Obs (Fin n)) :=
  if ch.count = 0 ∧ ch.closed = false then
    match waitForChannelState timeoutMs .timeout with
    | none => (ch, .wait, [])
    | some ret =>
      let (ch, outcome) := receiveWaitFailed ret ch
      (ch, outcome, [])
  else if ch.count = 0 ∧ ch.closed = true then (ch, .leave .closed none, [])
  else
    let (out, ch) := ch.takeHead P
    ({ ch with
        stats := { ch.stats with receivedCount := ch.stats.receivedCount + 1 } },
      .leave .ok out, out.toList.map Fifo.Obs.received)

/-- `sys_channel_receive` after a wait that returned `ret`. -/
def receiveWake (P : Platform) (timeoutMs ret : Int) (ch : SysChannel n) :
    SysChannel n × ReceiveOutcome n × List (Fifo.Obs (Fin n)) :=
  if waitResult ret ≠ .ok then
    let (ch, outcome) := receiveWaitFailed (waitResult ret) ch
    (ch, outcome, [])
  else receiveLoop P timeoutMs ch

/-! ## `sys_channel_retain` and `sys_channel_release` -/

/-- The head of the loop of `sys_channel_retain`; `none` when it goes on to the
    exchange. -/
def channelRetainLoop (P : Platform) (references : Nat) : Option SysErr :=
  if references = 0 then some .closed
  else if references = P.uintMax then some .overflow
  else none

/-- The compare-and-exchange of `sys_channel_retain`.  A weak exchange may fail
    spuriously; a failed one reloads `references`. -/
def channelExchange (references : Nat) (spurious : Bool) (ch : SysChannel n) :
    Bool × Nat × SysChannel n :=
  if ch.referenceCount = references ∧ spurious = false then
    (true, references, { ch with referenceCount := references + 1 })
  else (false, ch.referenceCount, ch)

/-- The decrement of `sys_channel_release`, with the value before it. -/
def channelFetchSub (P : Platform) (ch : SysChannel n) : Nat × SysChannel n :=
  (ch.referenceCount,
    { ch with referenceCount := (ch.referenceCount + P.uintMax) % (P.uintMax + 1) })

/-! ## Reading a channel -/

/-- `sys_channel_get_stats`, with `current_depth` next to the other statistics.  An
    argument is `none`, or false, for `NULL`. -/
def sysChannelGetStats (channel : Option (SysChannel n)) (outStats : Bool) :
    SysErr × Option (ChannelStats × Nat) :=
  match channel with
  | none => (.invalidParam, none)
  | some ch => if outStats = false then (.invalidParam, none) else (.ok, some (ch.stats, ch.count))

end Channel
end AppCore
