/-
  AppCore.Event.Model

  The event bus of `core/sys_event.c`: its global state and its critical sections.

  A subscription is known by the number of its allocation: `calloc` hands out a number
  that was never used before, and `free` takes the object away.  The in-flight count is a
  natural number; each unit of it is a place in a queue entry or in a local array.
-/

import AppCore.Types
import AppCore.Lib.Ring

namespace AppCore
namespace Event

/-- `SYS_EVENT_MAX_SUBSCRIBERS`. -/
abbrev eventMaxSubscribers : Nat := 64

/-- `SYS_EVENT_QUEUE_CAPACITY`. -/
abbrev eventQueueCapacity : Nat := 64

/-- `SYS_EVENT_MAX_PAYLOAD`. -/
abbrev eventMaxPayload : Nat := 64 * 1024

/-- `struct sys_event_subscription`.  Callbacks and their data are addresses, `0` for
    `NULL`. -/
structure Subscription where
  eventId : UInt32
  callback : Nat
  privateData : Nat
  active : Bool
  inFlight : Nat
deriving DecidableEq, Repr

/-- `sys_event_t`; the data is `none` for `NULL`. -/
structure SysEvent where
  id : UInt32
  abiVersion : UInt32
  data : Option (List UInt8)
  size : Nat
deriving DecidableEq, Repr

/-- The event that is handed to the callbacks. -/
def SysEvent.make (id : UInt32) (data : Option (List UInt8)) (size : Nat) : SysEvent where
  id := id
  abiVersion := 1
  data := data
  size := size

/-- `sys_event_work_t`, with the publishing call it comes from. -/
structure Work (K : Type*) where
  eventId : UInt32
  data : Option (List UInt8)
  size : Nat
  subscribers : List Nat
  call : K
deriving DecidableEq, Repr

/-- `sys_event_stats_t`; `current_queue_depth` is only filled in for the reader. -/
structure EventStats where
  synchronousPublishCount : UInt64 := 0
  asynchronousPublishCount : UInt64 := 0
  callbackFailureCount : UInt64 := 0
  queueFullCount : UInt64 := 0
  queueHighWatermark : Nat := 0
deriving DecidableEq, Repr

/-- The objects on the heap. -/
abbrev Heap := Nat → Option Subscription

/-- The static variables, and the heap.  A cleared queue entry is `none`. -/
structure Globals (K : Type*) where
  heap : Heap
  nextId : Nat
  subscribers : List Nat
  queue : Nat → Option (Work K)
  queueHead : Nat
  queueCount : Nat
  running : Bool
  accepting : Bool
  /-- `g_event_thread` is not `NULL`. -/
  thread : Bool
  stats : EventStats

/-- The variables before the first call. -/
def Globals.zero (K : Type*) : Globals K where
  heap := fun _ => none
  nextId := 1
  subscribers := []
  queue := fun _ => none
  queueHead := 0
  queueCount := 0
  running := false
  accepting := false
  thread := false
  stats := {}

/-- The thread-local variables. -/
structure ThreadLocal where
  currentSubscription : Option Nat := none
  /-- An `unsigned int`; a thread's stack ends long before it has `UINT_MAX` nested callbacks. -/
  callbackDepth : Nat := 0
deriving DecidableEq, Repr

variable {K : Type*}

/-- `subscription->in_flight`, nothing for an object that does not exist. -/
def Heap.inFlight (heap : Heap) (a : Nat) : Nat :=
  match heap a with
  | some sub => sub.inFlight
  | none => 0

/-! ## Start and stop -/

/-- `sys_event_bus_start` up to the creation of the thread. -/
def sysEventBusStart (g : Globals K) : SysErr × Globals K :=
  if g.running = true then (.state, g)
  else
    (.ok, { g with
      queueHead := 0, queueCount := 0, stats := {}, running := true, accepting := true })

/-- `sys_event_bus_start` when the thread could not be created. -/
def startFailed (g : Globals K) : Globals K :=
  { g with running := false, accepting := false }

/-- `has_in_flight_callbacks`. -/
def hasInFlightCallbacks (g : Globals K) : Bool :=
  g.subscribers.any fun a => g.heap.inFlight a ≠ 0

/-- `sys_event_bus_stop` up to the join; `none` when it goes on to it. -/
def sysEventBusStop (g : Globals K) : Option SysErr × Globals K :=
  if g.running = false then (some .ok, { g with accepting := false })
  else (none, { g with accepting := false, running := false })

/-- The wait loop of `sys_event_bus_stop` and what follows it; `none` when it waits. -/
def stopLoop (g : Globals K) : Option SysErr × Globals K :=
  if hasInFlightCallbacks g then (none, g)
  else
    (some .ok, { g with
      heap := fun a => if a ∈ g.subscribers then none else g.heap a
      subscribers := [] })

/-! ## Subscribing -/

/-- The comparison of `sys_event_subscribe` with one table entry. -/
def sameSubscription (heap : Heap) (eventId : UInt32) (callback privateData a : Nat) : Bool :=
  match heap a with
  | some sub => sub.eventId = eventId && sub.callback = callback && sub.privateData = privateData
  | none => false

/-- `sys_event_subscribe`, with the object it stores in `out_subscription`.  `memory` is
    false when `calloc` fails. -/
def sysEventSubscribe (eventId : UInt32) (callback privateData : Nat)
    (outSubscription memory : Bool) (g : Globals K) : SysErr × Globals K × Option Nat :=
  if outSubscription = false then (.invalidParam, g, none)
  else if eventId = 0 ∨ callback = 0 then (.invalidParam, g, none)
  else if memory = false then (.noMemory, g, none)
  else if g.accepting = false then (.closed, g, none)
  else if g.subscribers.length ≥ eventMaxSubscribers then (.noMemory, g, none)
  else if g.subscribers.any (sameSubscription g.heap eventId callback privateData) then
    (.alreadyExists, g, none)
  else
    (.ok,
      { g with
        heap := Function.update g.heap g.nextId (some {
          eventId := eventId, callback := callback, privateData := privateData
          active := true, inFlight := 0 })
        nextId := g.nextId + 1
        subscribers := g.subscribers ++ [g.nextId] },
      some g.nextId)

/-- `sys_event_unsubscribe` up to its wait loop; `none` when it goes on to it.
    `subscription` is `none` for a `NULL` pointer. -/
def sysEventUnsubscribe (tls : ThreadLocal) (subscription : Option Nat) (g : Globals K) :
    Option SysErr × Globals K :=
  match subscription with
  | none => (some .invalidParam, g)
  | some a =>
    if tls.callbackDepth > 0 ∨ tls.currentSubscription = some a then (some .busy, g)
    else if a ∈ g.subscribers then
      (none, { g with
        heap := Function.update g.heap a ((g.heap a).map fun sub => { sub with active := false })
        subscribers := g.subscribers.erase a })
    else (some .notFound, g)

/-! ## Publishing -/

/-- `retain_matching_subscribers` on the rest of the table. -/
def retainMatchingSubscribers (eventId : UInt32) : List Nat → Heap → List Nat × Heap
  | [], heap => ([], heap)
  | a :: rest, heap =>
    match heap a with
    | some sub =>
      if sub.active = true ∧ sub.eventId = eventId then
        let (subscribers, heap) := retainMatchingSubscribers eventId rest
          (Function.update heap a (some { sub with inFlight := sub.inFlight + 1 }))
        (a :: subscribers, heap)
      else retainMatchingSubscribers eventId rest heap
    | none => retainMatchingSubscribers eventId rest heap

/-- `sys_event_publish_sync` up to its loop, with the subscribers it has retained. -/
def sysEventPublishSync (eventId : UInt32) (data : Option (List UInt8)) (size : Nat)
    (g : Globals K) : SysErr × Globals K × List Nat :=
  if eventId = 0 ∨ (size > 0 ∧ data = none) then (.invalidParam, g, [])
  else if g.accepting = false then (.closed, g, [])
  else
    let (subscribers, heap) := retainMatchingSubscribers eventId g.subscribers g.heap
    (.ok,
      { g with
        heap := heap
        stats := { g.stats with
          synchronousPublishCount := g.stats.synchronousPublishCount + 1 } },
      subscribers)

/-- The copy of the payload that `sys_event_publish_async` makes. -/
def asyncPayload (data : Option (List UInt8)) (size : Nat) : Option (List UInt8) :=
  if size > 0 then data.map (·.take size) else none

/-- `sys_event_publish_async`, with the subscribers it has retained.  `memory` is false when
    `malloc` fails. -/
def sysEventPublishAsync (call : K) (eventId : UInt32) (data : Option (List UInt8)) (size : Nat)
    (memory : Bool) (g : Globals K) : SysErr × Globals K × List Nat :=
  if eventId = 0 ∨ size > eventMaxPayload ∨ (size > 0 ∧ data = none) then (.invalidParam, g, [])
  else if size > 0 ∧ memory = false then (.noMemory, g, [])
  else if g.accepting = false then (.closed, g, [])
  else if g.queueCount ≥ eventQueueCapacity then
    (.queueFull,
      { g with stats := { g.stats with queueFullCount := g.stats.queueFullCount + 1 } }, [])
  else
    let queueIndex := (g.queueHead + g.queueCount) % eventQueueCapacity
    let (subscribers, heap) := retainMatchingSubscribers eventId g.subscribers g.heap
    let stats := { g.stats with
      asynchronousPublishCount := g.stats.asynchronousPublishCount + 1 }
    if subscribers = [] then
      (.ok,
        { g with
          heap := heap, queue := Function.update g.queue queueIndex none, stats := stats }, [])
    else
      let queueCount := g.queueCount + 1
      (.ok,
        { g with
          heap := heap
          queue := Function.update g.queue queueIndex (some {
            eventId := eventId, data := asyncPayload data size, size := size
            subscribers := subscribers, call := call })
          queueCount := queueCount
          stats := { stats with
            queueHighWatermark :=
              if queueCount > stats.queueHighWatermark then queueCount
              else stats.queueHighWatermark } },
        subscribers)

/-! ## Delivering -/

/-- Where an iteration of a loop over subscribers is. -/
inductive Phase where
  /-- Before the call of the callback, or at the end of the loop. -/
  | ready
  /-- In the callback. -/
  | running
  /-- Before the failure is counted. -/
  | failed
  /-- Before `finish_callback`. -/
  | finishing
deriving DecidableEq, Repr

/-- The loop over subscribers of `event_worker` and `sys_event_publish_sync`; `pending` are
    the subscribers from the current iteration on. -/
structure Delivery where
  event : SysEvent
  pending : List Nat
  phase : Phase
deriving DecidableEq, Repr

/-- `finish_callback`; `none` when the subscription does not exist. -/
def finishCallback (a : Nat) (g : Globals K) : Option (Globals K) :=
  (g.heap a).map fun sub =>
    { g with
      heap := Function.update g.heap a (some { sub with
        inFlight := if sub.inFlight > 0 then sub.inFlight - 1 else sub.inFlight }) }

/-- The failure of a callback in the statistics. -/
def countFailure (g : Globals K) : Globals K :=
  { g with stats := { g.stats with callbackFailureCount := g.stats.callbackFailureCount + 1 } }

/-- The worker thread. -/
inductive WorkerLoop (K : Type*) where
  /-- There is none: not created, or joined. -/
  | absent
  /-- At the lock at the head of its loop, or in its wait. -/
  | waiting
  /-- Delivering the work of a publishing call. -/
  | delivering (call : K) (d : Delivery)
  /-- It has left its loop. -/
  | exited
deriving DecidableEq, Repr

/-- The section of `event_worker` at the head of its loop. -/
def eventWorker (g : Globals K) : Globals K × WorkerLoop K :=
  if g.queueCount = 0 ∧ g.running = true then (g, .waiting)
  else if g.queueCount = 0 ∧ g.running = false then (g, .exited)
  else
    let g' := { g with
      queue := Function.update g.queue g.queueHead none
      queueHead := (g.queueHead + 1) % eventQueueCapacity
      queueCount := g.queueCount - 1 }
    match g.queue g.queueHead with
    | some work =>
      (g', .delivering work.call
        ⟨SysEvent.make work.eventId work.data work.size, work.subscribers, .ready⟩)
    | none => (g', .waiting)

end Event
end AppCore
