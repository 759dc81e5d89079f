/-
  AppCore.Event.System

  The event bus with its worker thread and any number of calling threads, one critical
  section at a time.  A callback is code of the caller: while one is running, its thread
  may call the bus again, and `stack` holds the calls of a thread that have not returned,
  the innermost first.

  The two logs do not exist in the program: `syncLog` and `asyncLog` record what the
  synchronous and asynchronous publishing calls have caused.
-/

import AppCore.Event.Model
import AppCore.Lib.Machine

namespace AppCore
namespace Event

/-- A thread: the worker of the bus, or one of its callers. -/
inductive Thread (Tid : Type*) where
  | worker
  | caller (t : Tid)
deriving DecidableEq, Repr

/-- A call with its arguments.  A pointer argument is `none`, or false, for `NULL`. -/
inductive Call where
  | start
  | stop
  | subscribe (eventId : UInt32) (callback privateData : Nat) (outSubscription memory : Bool)
  | unsubscribe (subscription : Option Nat)
  | publishSync (eventId : UInt32) (data : Option (List UInt8)) (size : Nat)
  | publishAsync (eventId : UInt32) (data : Option (List UInt8)) (size : Nat) (memory : Bool)
deriving DecidableEq, Repr

/-- Where a call is between two of its sections. -/
inductive CallState where
  | notStarted
  /-- `sys_event_bus_start` is about to create the thread. -/
  | starting
  /-- `sys_event_bus_start` has created the thread and is about to store it. -/
  | storing
  | stopJoin
  | stopWait
  | unsubscribeWait (subscription : Nat)
  | unsubscribeFree (subscription : Nat)
  | publishing (d : Delivery) (firstError : SysErr)
  /-- The return code, and the subscription handed out. -/
  | returned (call : Call) (ret : SysErr) (out : Option Nat)
deriving DecidableEq, Repr

/-- What a publishing call has caused. -/
inductive Obs where
  /-- It was accepted, for these subscribers. -/
  | accepted (event : SysEvent) (subscribers : List Nat)
  /-- A callback was started. -/
  | started (event : SysEvent) (subscriber : Nat)
  /-- A callback returned. -/
  | result (ret : SysErr)
deriving DecidableEq, Repr

/-- The bus, its worker and its callers. -/
structure Bus (Tid K : Type*) where
  globals : Globals K
  worker : WorkerLoop K
  calls : K → CallState
  stack : Thread Tid → List K
  locals : Thread Tid → ThreadLocal
  syncLog : List (K × Obs)
  asyncLog : List (K × Obs)

/-- The atomic steps. -/
inductive Action (Tid K : Type*) where
  /-- The code of a thread calls the bus. -/
  | call (t : Thread Tid) (k : K) (call : Call)
  /-- The innermost call of a thread, or the worker loop, enters its next section.  A wait
      may return at any time. -/
  | proceed (t : Thread Tid)
  /-- A callback returns. -/
  | callbackReturn (t : Thread Tid) (ret : SysErr)
  /-- `sys_thread_create` returns `ret` to `sys_event_bus_start`. -/
  | threadCreate (t : Thread Tid) (ret : SysErr)
  /-- `sys_thread_join` is called by `sys_event_bus_stop`; `ret` is what `pthread_join`
      returns. -/
  | join (t : Thread Tid) (ret : Int)
deriving DecidableEq, Repr

/-- The next section of a loop over subscribers.  The third result is the subscriber whose
    callback is started. -/
def Delivery.advance {K : Type*} (d : Delivery) (g : Globals K) :
    Option (Globals K × Delivery × Option Nat) :=
  match d.phase, d.pending with
  | .ready, a :: _ => (g.heap a).map fun _ => (g, { d with phase := .running }, some a)
  | .failed, _ => some (countFailure g, { d with phase := .finishing }, none)
  | .finishing, a :: rest =>
    (finishCallback a g).map fun g => (g, { d with pending := rest, phase := .ready }, none)
  | _, _ => none

/-- The loop is over. -/
def Delivery.atEnd (d : Delivery) : Prop := d.phase = .ready ∧ d.pending = []

instance (d : Delivery) : Decidable d.atEnd :=
  inferInstanceAs (Decidable (d.phase = .ready ∧ d.pending = []))

/-- The loop after its callback has returned. -/
def Delivery.returned (d : Delivery) (ret : SysErr) : Delivery :=
  { d with phase := if ret ≠ .ok then .failed else .finishing }

/-- The record of a callback that was started. -/
def startedObs (event : SysEvent) : Option Nat → List Obs
  | some a => [.started event a]
  | none => []

/-- The thread-local variables when a callback is started. -/
def ThreadLocal.enterCallback (l : ThreadLocal) : Option Nat → ThreadLocal
  | some a => { currentSubscription := some a, callbackDepth := l.callbackDepth + 1 }
  | none => l

/-- The thread-local variables when a callback has returned. -/
def ThreadLocal.leaveCallback (l : ThreadLocal) : ThreadLocal :=
  { currentSubscription := none, callbackDepth := l.callbackDepth - 1 }

/-- The error of `sys_thread_join` when `pthread_join` returns `ret`. -/
def joinError (ret : Int) : SysErr :=
  if ret = ETIMEDOUT ∨ ret = EBUSY then .timeout else sysErrorFromErrno ret

section Step

variable {Tid K : Type*} [DecidableEq Tid] [DecidableEq K]

/-- The thread is in code of the caller. -/
def Bus.inUserCode (s : Bus Tid K) (t : Thread Tid) : Bool :=
  match s.stack t with
  | k :: _ =>
    match s.calls k with
    | .publishing d _ => d.phase = .running
    | _ => false
  | [] =>
    match t with
    | .caller _ => true
    | .worker =>
      match s.worker with
      | .delivering _ d => d.phase = .running
      | _ => false

/-- The call `k` is now at `st`. -/
def Bus.setCall (s : Bus Tid K) (k : K) (st : CallState) : Bus Tid K :=
  { s with calls := Function.update s.calls k st }

/-- The call `k` of thread `t` goes on after its first section. -/
def Bus.enter (s : Bus Tid K) (t : Thread Tid) (k : K) (st : CallState) : Bus Tid K :=
  { s.setCall k st with stack := Function.update s.stack t (k :: s.stack t) }

/-- The call `k`, the innermost of thread `t`, returns. -/
def Bus.leave (s : Bus Tid K) (t : Thread Tid) (k : K) (call : Call) (ret : SysErr) :
    Bus Tid K :=
  { s.setCall k (.returned call ret none) with
    stack := Function.update s.stack t (s.stack t).tail }

/-- The first section of a call. -/
def begin (s : Bus Tid K) (t : Thread Tid) (k : K) (call : Call) : Option (Bus Tid K) :=
  let answer (g : Globals K) (ret : SysErr) (out : Option Nat) :=
    ({ s with globals := g } : Bus Tid K).setCall k (.returned call ret out)
  match call with
  | .start =>
    let (ret, g) := sysEventBusStart s.globals
    if ret ≠ .ok then some (answer g ret none)
    else some (({ s with globals := g } : Bus Tid K).enter t k .starting)
  | .stop =>
    match sysEventBusStop s.globals with
    | (some ret, g) => some (answer g ret none)
    | (none, g) => some (({ s with globals := g } : Bus Tid K).enter t k .stopJoin)
  | .subscribe eventId callback privateData outSubscription memory =>
    let (ret, g, out) :=
      sysEventSubscribe eventId callback privateData outSubscription memory s.globals
    some (answer g ret out)
  | .unsubscribe subscription =>
    match sysEventUnsubscribe (s.locals t) subscription s.globals, subscription with
    | (some ret, g), _ => some (answer g ret none)
    | (none, g), some a =>
      some (({ s with globals := g } : Bus Tid K).enter t k
        (if g.heap.inFlight a > 0 then .unsubscribeWait a else .unsubscribeFree a))
    | (none, _), none => none
  | .publishSync eventId data size =>
    let (ret, g, subscribers) := sysEventPublishSync eventId data size s.globals
    if ret ≠ .ok then some (answer g ret none)
    else
      let event := SysEvent.make eventId data size
      some (({ s with
          globals := g, syncLog := s.syncLog ++ [(k, .accepted event subscribers)] } :
        Bus Tid K).enter t k (.publishing ⟨event, subscribers, .ready⟩ .ok))
  | .publishAsync eventId data size memory =>
    let (ret, g, subscribers) := sysEventPublishAsync k eventId data size memory s.globals
    if ret ≠ .ok then some (answer g ret none)
    else
      let event := SysEvent.make eventId (asyncPayload data size) size
      some { answer g ret none with
        asyncLog := s.asyncLog ++ [(k, .accepted event subscribers)] }

/-- The next section of a call that has not returned. -/
def proceedCall (s : Bus Tid K) (t : Thread Tid) (k : K) : Option (Bus Tid K) :=
  match s.calls k with
  | .publishing d firstError =>
    if d.atEnd then
      some (s.leave t k (.publishSync d.event.id d.event.data d.event.size) firstError)
    else
      (d.advance s.globals).map fun (g, d', started) =>
        ({ s with
          globals := g
          locals := Function.update s.locals t ((s.locals t).enterCallback started)
          syncLog := s.syncLog ++ (startedObs d.event started).map fun o => (k, o) } :
        Bus Tid K).setCall k (.publishing d' firstError)
  | .unsubscribeWait a =>
    if s.globals.heap.inFlight a > 0 then some s else some (s.setCall k (.unsubscribeFree a))
  | .unsubscribeFree a =>
    some (({ s with globals := { s.globals with
        heap := Function.update s.globals.heap a none } } : Bus Tid K).leave t k
      (.unsubscribe (some a)) .ok)
  | .storing =>
    some (({ s with globals := { s.globals with thread := true } } : Bus Tid K).leave t k
      .start .ok)
  | .stopWait =>
    match stopLoop s.globals with
    | (some ret, g) => some (({ s with globals := g } : Bus Tid K).leave t k .stop ret)
    | (none, g) => some { s with globals := g }
  | _ => none

/-- The next section of the worker loop. -/
def proceedWorker (s : Bus Tid K) : Option (Bus Tid K) :=
  match s.worker with
  | .waiting =>
    let (g, w) := eventWorker s.globals
    some { s with globals := g, worker := w }
  | .delivering k d =>
    if d.atEnd then some { s with worker := .waiting }
    else
      (d.advance s.globals).map fun (g, d', started) =>
        { s with
          globals := g
          worker := .delivering k d'
          locals := Function.update s.locals .worker ((s.locals .worker).enterCallback started)
          asyncLog := s.asyncLog ++ (startedObs d.event started).map fun o => (k, o) }
  | _ => none

/-- The next section of a thread. -/
def proceed (s : Bus Tid K) (t : Thread Tid) : Option (Bus Tid K) :=
  match s.stack t with
  | k :: _ => proceedCall s t k
  | [] =>
    match t with
    | .worker => proceedWorker s
    | .caller _ => none

/-- A callback of thread `t` returns. -/
def callbackReturn (s : Bus Tid K) (t : Thread Tid) (ret : SysErr) : Option (Bus Tid K) :=
  let s' := { s with locals := Function.update s.locals t (s.locals t).leaveCallback }
  match s.stack t with
  | k :: _ =>
    match s.calls k with
    | .publishing d firstError =>
      if d.phase = .running then
        some (({ s' with syncLog := s.syncLog ++ [(k, .result ret)] } : Bus Tid K).setCall k
          (.publishing (d.returned ret)
            (if firstError = .ok ∧ ret ≠ .ok then ret else firstError)))
      else none
    | _ => none
  | [] =>
    match t, s.worker with
    | .worker, .delivering k d =>
      if d.phase = .running then some { s' with worker := .delivering k (d.returned ret) }
      else none
    | _, _ => none

/-- `sys_thread_create` returns to `sys_event_bus_start`. -/
def threadCreate (s : Bus Tid K) (t : Thread Tid) (ret : SysErr) : Option (Bus Tid K) :=
  match s.stack t with
  | k :: _ =>
    match s.calls k with
    | .starting =>
      let g := { s.globals with thread := false }
      if ret ≠ .ok then
        some (({ s with globals := startFailed g } : Bus Tid K).leave t k .start ret)
      else
        some (({ s with
          globals := g, worker := .waiting
          locals := Function.update s.locals .worker {} } : Bus Tid K).setCall k .storing)
    | _ => none
  | [] => none

/-- `sys_thread_join` in `sys_event_bus_stop`. -/
def join (s : Bus Tid K) (t : Thread Tid) (ret : Int) : Option (Bus Tid K) :=
  match s.stack t with
  | k :: _ =>
    match s.calls k with
    | .stopJoin =>
      if s.globals.thread = false then some (s.leave t k .stop .invalidParam)
      else if t = .worker then some (s.leave t k .stop .busy)
      else if ret ≠ 0 then some (s.leave t k .stop (joinError ret))
      else
        match s.worker with
        | .exited =>
          some (({ s with
            globals := { s.globals with thread := false }, worker := .absent } :
          Bus Tid K).setCall k .stopWait)
        | _ => none
    | _ => none
  | [] => none

/-- One atomic step. -/
def next (s : Bus Tid K) : Action Tid K → Option (Bus Tid K)
  | .call t k call =>
    if s.inUserCode t = true ∧ s.calls k = .notStarted then begin s t k call else none
  | .proceed t => proceed s t
  | .callbackReturn t ret => callbackReturn s t ret
  | .threadCreate t ret => threadCreate s t ret
  | .join t ret => join s t ret

/-- No worker, no start in progress, an empty table and an empty queue. -/
structure Bus.Idle (s : Bus Tid K) : Prop where
  running : s.globals.running = false
  worker : s.worker = .absent
  calls : ∀ k, s.calls k ≠ .starting ∧ s.calls k ≠ .storing
  subscribers : s.globals.subscribers = []
  queueCount : s.globals.queueCount = 0

/-- A start that is not refused finds an idle bus. -/
def StartsIdle (s : Bus Tid K) : Action Tid K → Prop
  | .call _ _ .start => s.globals.running = true ∨ s.Idle
  | _ => True

/-- The bus before the first call. -/
def Bus.zero (Tid K : Type*) : Bus Tid K where
  globals := Globals.zero K
  worker := .absent
  calls := fun _ => .notStarted
  stack := fun _ => []
  locals := fun _ => {}
  syncLog := []
  asyncLog := []

/-- The sessions of the bus, one after the other, under all interleavings. -/
def eventMachine (Tid K : Type*) [DecidableEq Tid] [DecidableEq K] :
    Machine (Bus Tid K) (Action Tid K) :=
  (Machine.ofNext (fun s => s = Bus.zero Tid K) next).restrict fun s e _ => StartsIdle s e

end Step

end Event
end AppCore
