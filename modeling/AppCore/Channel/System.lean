/-
  AppCore.Channel.System

  One buffer pool, any set of channels and any number of calls that run
  interleaved, one critical section (or atomic operation) at a time.

  `held` and `record` do not exist in the program: `held` counts the references the
  callers have, and `record` lists what each call put into a channel or took out of
  it.  Calls and channels have identities that are not used twice.
-/

import AppCore.Channel.Fifo
import AppCore.Lib.Machine

namespace AppCore
namespace Channel

/-- A channel object over its life. -/
inductive ChannelSlot (n : Nat) where
  | absent
  | live (ch : SysChannel n)
  /-- `sys_channel_release` has taken the last reference and has released the first
      `i` queued buffers. -/
  | dying (ch : SysChannel n) (i : Nat)
  | freed

/-- A call with its arguments.  A pointer argument is `none`, or false, for `NULL`. -/
inductive Call (C : Type*) (n : Nat) where
  | bufferAcquire (outBuffer : Bool)
  | bufferRetain (buffer : Option (Fin n))
  | bufferRelease (buffer : Option (Fin n))
  | poolWaitIdle (timeoutMs : Int)
  | create (c : C) (config : Option ChannelConfig) (outChannel : Bool) (environment : SysErr)
  | send (channel : Option C) (buffer : Option (Fin n)) (timeoutMs : Int)
  | receive (channel : Option C) (outBuffer : Bool) (timeoutMs : Int)
  | close (channel : Option C)
  | retain (channel : Option C)
  | release (channel : Option C)
deriving DecidableEq, Repr

/-- Where a call is between two of its critical sections. -/
inductive CallState (C : Type*) (n : Nat) where
  | notStarted
  /-- `sys_channel_send` has retained its buffer. -/
  | sendLock (c : C) (buffer : Fin n) (timeoutMs : Int)
  | sendWait (c : C) (buffer : Fin n) (dropped : Option (Fin n)) (timeoutMs : Int)
  /-- `sys_channel_send` has unlocked the channel and has these buffers to release. -/
  | sendRelease (c : C) (buffer : Fin n) (timeoutMs : Int) (ret : SysErr)
      (releases : List (Fin n))
  | receiveWait (c : C) (timeoutMs : Int)
  /-- `sys_channel_retain` is about to exchange `references`. -/
  | retaining (c : C) (references : Nat)
  | tearingDown (c : C)
  | idleWait (timeoutMs : Int)
  /-- The return code (`SYS_OK` for a `void` function) and the buffer handed out. -/
  | returned (call : Call C n) (ret : SysErr) (out : Option (Fin n))
deriving DecidableEq, Repr

/-- The pool, the channels, the calls and what their callers hold. -/
structure System (C K : Type*) (n : Nat) where
  pool : Pool n
  channels : C → ChannelSlot n
  calls : K → CallState C n
  held : Fin n → Nat
  record : List (K × C × Fifo.Obs (Fin n))

/-- The atomic steps. -/
inductive Event (C K : Type*) (n : Nat) where
  /-- A call starts and runs to the end of its first section. -/
  | call (k : K) (call : Call C n)
  /-- A running call enters its next section. -/
  | proceed (k : K)
  /-- The compare-and-exchange of `sys_channel_retain`. -/
  | exchange (k : K) (spurious : Bool)
  /-- The wait of a call returns `ret`. -/
  | wake (k : K) (ret : Int)
deriving DecidableEq, Repr

section Step

variable {C K : Type*} {n : Nat} [DecidableEq C] [DecidableEq K] (P : Platform)

/-- The references of the callers after a buffer was handed to one of them. -/
def gain (held : Fin n → Nat) (out : Option (Fin n)) : Fin n → Nat :=
  match out with
  | none => held
  | some b => Function.update held b (held b + 1)

/-- The references of the callers after one of them gave a buffer back. -/
def lose (held : Fin n → Nat) (buffer : Option (Fin n)) : Fin n → Nat :=
  match buffer with
  | none => held
  | some b => Function.update held b (held b - 1)

/-- The call `k` is now at `st`. -/
def System.setCall (s : System C K n) (k : K) (st : CallState C n) : System C K n :=
  { s with calls := Function.update s.calls k st }

/-- The channel `c` is now `slot`. -/
def System.setChannel (s : System C K n) (c : C) (slot : ChannelSlot n) : System C K n :=
  { s with channels := Function.update s.channels c slot }

/-- What the call `k` did to the channel `c`. -/
def System.observe (s : System C K n) (k : K) (c : C) (obs : List (Fifo.Obs (Fin n))) :
    System C K n :=
  { s with record := s.record ++ obs.map fun o => (k, c, o) }

/-- A critical section of a send, on a channel that exists. -/
def System.sendSection (s : System C K n) (k : K) (c : C) (buffer : Fin n) (timeoutMs : Int)
    (run : SysChannel n → SysChannel n × SendOutcome n × List (Fifo.Obs (Fin n))) :
    Option (System C K n) :=
  match s.channels c with
  | .live ch =>
    let (ch, outcome, obs) := run ch
    let st := match outcome with
      | .wait dropped => .sendWait c buffer dropped timeoutMs
      | .leave ret releases => .sendRelease c buffer timeoutMs ret releases
    some (((s.setChannel c (.live ch)).setCall k st).observe k c obs)
  | _ => none

/-- A critical section of a receive, on a channel that exists. -/
def System.receiveSection (s : System C K n) (k : K) (c : C) (timeoutMs : Int)
    (run : SysChannel n → SysChannel n × ReceiveOutcome n × List (Fifo.Obs (Fin n))) :
    Option (System C K n) :=
  match s.channels c with
  | .live ch =>
    let (ch, outcome, obs) := run ch
    match outcome with
    | .wait => some (((s.setChannel c (.live ch)).setCall k (.receiveWait c timeoutMs)).observe
        k c obs)
    | .leave ret out =>
      some (({ s with held := gain s.held out }.setChannel c (.live ch)).setCall k
        (.returned (.receive (some c) true timeoutMs) ret out) |>.observe k c obs)
  | _ => none

/-- `sys_channel_retain` at the head of its loop. -/
def System.retainSection (s : System C K n) (k : K) (c : C) (references : Nat) :
    System C K n :=
  match channelRetainLoop P references with
  | some ret => s.setCall k (.returned (.retain (some c)) ret none)
  | none => s.setCall k (.retaining c references)

/-- The first section of a call.  A call on a channel that does not exist is no step:
    its caller would not have the pointer. -/
def enter (s : System C K n) (k : K) (call : Call C n) : Option (System C K n) :=
  let finish (s : System C K n) (ret : SysErr) (out : Option (Fin n)) :=
    some (s.setCall k (.returned call ret out))
  match call with
  | .bufferAcquire outBuffer =>
    let (ret, pool, out) := sysBufferAcquire P outBuffer s.pool
    finish { s with pool := pool, held := gain s.held out } ret out
  | .bufferRetain buffer =>
    let (ret, pool) := sysBufferRetain P buffer s.pool
    finish { s with
      pool := pool, held := if ret = .ok then gain s.held buffer else s.held } ret none
  | .bufferRelease buffer =>
    finish { s with
      pool := sysBufferRelease P buffer s.pool, held := lose s.held buffer } .ok none
  | .poolWaitIdle timeoutMs =>
    match waitIdleLoop timeoutMs s.pool with
    | some ret => finish s ret none
    | none => some (s.setCall k (.idleWait timeoutMs))
  | .create c config outChannel environment =>
    match s.channels c with
    | .absent =>
      match sysChannelCreateWithConfig P config outChannel environment with
      | (ret, some ch) => finish (s.setChannel c (.live ch)) ret none
      | (ret, none) => finish s ret none
    | _ => none
  | .send (some c) (some buffer) timeoutMs =>
    match s.channels c with
    | .live _ =>
      let (ret, pool) := sysBufferRetain P (some buffer) s.pool
      if ret = .ok then some (({ s with pool := pool }).setCall k (.sendLock c buffer timeoutMs))
      else finish { s with pool := pool } ret none
    | _ => none
  | .send _ _ _ => finish s .invalidParam none
  | .receive (some c) true timeoutMs => s.receiveSection k c timeoutMs (receiveLoop P timeoutMs)
  | .receive _ _ _ => finish s .invalidParam none
  | .close (some c) =>
    match s.channels c with
    | .live ch => finish (s.setChannel c (.live (sysChannelClose ch))) .ok none
    | _ => none
  | .close none => finish s .ok none
  | .retain (some c) =>
    match s.channels c with
    | .live ch => some (s.retainSection P k c ch.referenceCount)
    | _ => none
  | .retain none => finish s .invalidParam none
  | .release (some c) =>
    match s.channels c with
    | .live ch =>
      let (references, ch) := channelFetchSub P ch
      if references ≠ 1 then finish (s.setChannel c (.live ch)) .ok none
      else some ((s.setChannel c (.dying ch 0)).setCall k (.tearingDown c))
    | _ => none
  | .release none => finish s .ok none

/-- The next section of a running call. -/
def proceed (s : System C K n) (k : K) : Option (System C K n) :=
  match s.calls k with
  | .sendLock c buffer timeoutMs =>
    s.sendSection k c buffer timeoutMs (sendEnter P buffer timeoutMs)
  | .sendRelease c buffer timeoutMs ret (x :: rest) =>
    some (({ s with pool := sysBufferRelease P (some x) s.pool }).setCall k
      (.sendRelease c buffer timeoutMs ret rest))
  | .sendRelease c buffer timeoutMs ret [] =>
    some (s.setCall k (.returned (.send (some c) (some buffer) timeoutMs) ret none))
  | .tearingDown c =>
    match s.channels c with
    | .dying ch i =>
      if i < ch.count then
        some (({ s with pool := sysBufferRelease P (ch.queue (ch.index P i)) s.pool }).setChannel c
          (.dying ch (i + 1)))
      else some ((s.setChannel c .freed).setCall k (.returned (.release (some c)) .ok none))
    | _ => none
  | _ => none

/-- The compare-and-exchange of a `sys_channel_retain`. -/
def exchange (s : System C K n) (k : K) (spurious : Bool) : Option (System C K n) :=
  match s.calls k with
  | .retaining c references =>
    match s.channels c with
    | .live ch =>
      let (exchanged, references, ch) := channelExchange references spurious ch
      let s := s.setChannel c (.live ch)
      if exchanged then some (s.setCall k (.returned (.retain (some c)) .ok none))
      else some (s.retainSection P k c references)
    | _ => none
  | _ => none

/-- The section of a call whose wait returned `ret`. -/
def wake (s : System C K n) (k : K) (ret : Int) : Option (System C K n) :=
  match s.calls k with
  | .sendWait c buffer dropped timeoutMs =>
    s.sendSection k c buffer timeoutMs (sendWake P buffer dropped timeoutMs ret)
  | .receiveWait c timeoutMs => s.receiveSection k c timeoutMs (receiveWake P timeoutMs ret)
  | .idleWait timeoutMs =>
    match waitIdleWake timeoutMs ret s.pool with
    | some ret => some (s.setCall k (.returned (.poolWaitIdle timeoutMs) ret none))
    | none => some s
  | _ => none

/-- One atomic step. -/
def next (s : System C K n) : Event C K n → Option (System C K n)
  | .call k call => if s.calls k = .notStarted then enter P s k call else none
  | .proceed k => proceed P s k
  | .exchange k spurious => exchange P s k spurious
  | .wake k ret => wake P s k ret

/-- A call that will still touch the channel `c`. -/
def CallState.Uses (c : C) : CallState C n → Prop
  | .sendLock c' _ _ => c' = c
  | .sendWait c' _ _ _ => c' = c
  | .receiveWait c' _ => c' = c
  | .retaining c' _ => c' = c
  | _ => False

/-- The contract of a channel's owners: the last reference is released when no other call
    is using the channel. -/
def LastRelease (s : System C K n) : Event C K n → Prop
  | .call _ (.release (some c)) =>
    ∀ ch, s.channels c = .live ch → ch.referenceCount = 1 → ∀ k, ¬ (s.calls k).Uses c
  | _ => True

/-- The contract of a buffer's owners: only references that are held are released. -/
def Holds (s : System C K n) : Event C K n → Prop
  | .call _ (.bufferRelease (some b)) => 0 < s.held b
  | _ => True

/-- The system after `sys_buffer_pool_create` has succeeded. -/
def System.Fresh (s : System C K n) : Prop :=
  (∃ blockCapacity, sysBufferPoolCreate P n blockCapacity true .ok = (.ok, some s.pool)) ∧
    s.channels = (fun _ => .absent) ∧ s.calls = (fun _ => .notStarted) ∧
    s.held = (fun _ => 0) ∧ s.record = []

/-- The system under all interleavings of its calls.  The buffers may be misused. -/
def channelMachine (C K : Type*) (n : Nat) [DecidableEq C] [DecidableEq K] (P : Platform) :
    Machine (System C K n) (Event C K n) :=
  (Machine.ofNext (System.Fresh P) (next P)).restrict fun s e _ => LastRelease s e

/-- The system whose callers release only buffers they hold. -/
def ownedMachine (C K : Type*) (n : Nat) [DecidableEq C] [DecidableEq K] (P : Platform) :
    Machine (System C K n) (Event C K n) :=
  (Machine.ofNext (System.Fresh P) (next P)).restrict fun s e _ => LastRelease s e ∧ Holds s e

end Step

end Channel
end AppCore
