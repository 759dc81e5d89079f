/-
  AppCore.Core.System

  `sys_core_init` and `sys_core_shutdown` of `core/sys_core.c` around the event bus: the
  bus is only started and stopped from there, by whatever thread calls them, while all
  other threads go on using the bus.  In the component passes the thread runs code of the
  application, which may call the bus, or one of the two functions again.

  A stop whose join fails leaves its worker behind.  When the next start creates another
  one, the old worker goes on as the caller `inr n`, and its loop is kept in `abandoned`.
-/

import AppCore.Event.System

namespace AppCore
namespace Core

open Event (Bus Thread WorkerLoop CallState Call)

/-- `sys_core_state_t`. -/
inductive CoreState where
  | stopped
  | starting
  | running
  | stopping
deriving DecidableEq, Repr

/-- The two entry points. -/
inductive Entry where
  | init
  | shutdown
deriving DecidableEq, Repr

/-- Where a thread in `sys_core_init` or `sys_core_shutdown` is. -/
inductive Point (K : Type*) where
  /-- Before `sys_event_bus_start`. -/
  | busStart
  /-- In `sys_event_bus_start`, which is the call `k`. -/
  | inBusStart (k : K)
  /-- In `sys_component_start_all` or `sys_component_stop_all`. -/
  | components
  /-- Before `sys_event_bus_stop`. -/
  | busStop
  /-- In `sys_event_bus_stop`, which is the call `k`. -/
  | inBusStop (k : K)
  /-- Before `g_core_state` is written for the last time. -/
  | finish
deriving DecidableEq, Repr

/-- The threads that call the bus: those of the application, and abandoned workers. -/
abbrev Caller (Tid : Type*) := Tid ⊕ Nat

/-- A call of an entry point that was not refused.  `depth` is the number of bus calls the
    thread was in, and `ret` the local variable that becomes the return code. -/
structure Frame (Tid K : Type*) where
  entry : Entry
  thread : Thread (Caller Tid)
  depth : Nat
  point : Point K
  ret : SysErr
deriving DecidableEq, Repr

/-- The bus, the workers nobody has joined, and the core. -/
structure Framework (Tid K : Type*) where
  bus : Bus (Caller Tid) K
  abandoned : Nat → WorkerLoop K
  abandonedCount : Nat
  core : CoreState
  frame : Option (Frame Tid K)
  /-- What the last entry point to return has returned. -/
  returned : Option (Entry × SysErr)
  /-- The number the first subscription of the session gets; not in the program. -/
  firstSubscription : Nat

/-- The atomic steps. -/
inductive CoreAction (Tid K : Type*) where
  /-- A step of the bus; the calls are those of the application. -/
  | bus (a : Event.Action (Caller Tid) K)
  /-- A thread calls `sys_core_init`. -/
  | init (t : Thread (Caller Tid))
  /-- A thread calls `sys_core_shutdown`. -/
  | shutdown (t : Thread (Caller Tid))
  /-- The entry point calls `sys_event_bus_start` or `sys_event_bus_stop`, as the call `k`. -/
  | busCall (k : K)
  /-- That call has returned.  `unjoined` tells whether managed threads remain. -/
  | busReturned (unjoined : Bool)
  /-- The component pass returns. -/
  | componentsReturned (ret : SysErr)
  /-- `g_core_state` is written, and the entry point returns. -/
  | finish
deriving DecidableEq, Repr

section Functions

variable {Tid K : Type*} [DecidableEq Tid] [DecidableEq K]

/-- The framework before the first call. -/
def Framework.zero (Tid K : Type*) : Framework Tid K where
  bus := Bus.zero (Caller Tid) K
  abandoned := fun _ => .absent
  abandonedCount := 0
  core := .stopped
  frame := none
  returned := none
  firstSubscription := 0

/-! ## Abandoned workers -/

/-- The number of the abandoned worker that is in its own loop, outside any bus call. -/
def Framework.abandonedLoop (s : Framework Tid K) : Thread (Caller Tid) → Option Nat
  | .caller (.inr n) => if s.bus.stack (.caller (.inr n)) = [] then some n else none
  | _ => none

/-- The bus as the abandoned worker `n` sees it, in the place of the worker. -/
def Framework.view (s : Framework Tid K) (n : Nat) : Bus (Caller Tid) K :=
  { s.bus with
    worker := s.abandoned n
    stack := Function.update s.bus.stack .worker []
    locals := Function.update s.bus.locals .worker (s.bus.locals (.caller (.inr n))) }

/-- What a step of its loop leaves. -/
def Framework.unview (s : Framework Tid K) (n : Nat) (b : Bus (Caller Tid) K) :
    Framework Tid K :=
  { s with
    bus := { b with
      worker := s.bus.worker
      stack := s.bus.stack
      locals := Function.update s.bus.locals (.caller (.inr n)) (b.locals .worker) }
    abandoned := Function.update s.abandoned n b.worker }

/-- The name a thread has once the worker is abandoned. -/
def Framework.renamed (s : Framework Tid K) : Thread (Caller Tid) → Thread (Caller Tid)
  | .worker => .caller (.inr s.abandonedCount)
  | t => t

/-- The worker becomes an abandoned one. -/
def Framework.abandon (s : Framework Tid K) : Framework Tid K :=
  { s with
    bus := { s.bus with
      worker := .absent
      stack := Function.update
        (Function.update s.bus.stack (s.renamed .worker) (s.bus.stack .worker)) .worker []
      locals := Function.update
        (Function.update s.bus.locals (s.renamed .worker) (s.bus.locals .worker)) .worker {} }
    abandoned := Function.update s.abandoned s.abandonedCount s.bus.worker
    abandonedCount := s.abandonedCount + 1
    frame := s.frame.map fun f => { f with thread := s.renamed f.thread } }

/-! ## Steps -/

/-- The entry point of `f` is executing code of the framework itself. -/
def Frame.blocks (f : Frame Tid K) (t : Thread (Caller Tid)) : Bool :=
  f.thread = t && f.point ≠ .components

/-- The thread is in code of the application. -/
def Framework.inUserCode (s : Framework Tid K) (t : Thread (Caller Tid)) : Bool :=
  (match s.abandonedLoop t with
  | some n => (s.view n).inUserCode .worker
  | none => s.bus.inUserCode t) &&
  !(s.frame.any fun f => f.blocks t)

/-- The innermost callback of the thread is inside a call of an entry point. -/
def Framework.inEntry (s : Framework Tid K) (t : Thread (Caller Tid)) : Bool :=
  s.frame.any fun f => f.thread = t && f.depth = (s.bus.stack t).length

/-- The call is one the application can make. -/
def userCall : Call → Bool
  | .start => false
  | .stop => false
  | _ => true

/-- A step of the bus. -/
def busStep (s : Framework Tid K) (a : Event.Action (Caller Tid) K) :
    Option (Framework Tid K) :=
  let plain := (Event.next s.bus a).map fun b => { s with bus := b }
  match a with
  | .call t _ call => if userCall call = true ∧ s.inUserCode t = true then plain else none
  | .proceed t =>
    match s.abandonedLoop t with
    | some n => (Event.proceedWorker (s.view n)).map (s.unview n)
    | none => plain
  | .callbackReturn t ret =>
    if s.inEntry t = true then none
    else
      match s.abandonedLoop t with
      | some n => (Event.callbackReturn (s.view n) .worker ret).map (s.unview n)
      | none => plain
  | .threadCreate t ret =>
    if ret = .ok ∧ s.bus.worker ≠ .absent then
      (Event.threadCreate s.abandon.bus (s.renamed t) ret).map fun b => { s.abandon with bus := b }
    else plain
  | .join _ _ => plain

/-- The return code of `sys_core_shutdown`. -/
def shutdownResult (componentRet eventRet : SysErr) (unjoined : Bool) : SysErr :=
  let ret := if componentRet ≠ .ok then componentRet else eventRet
  if unjoined = true ∧ ret = .ok then .busy else ret

/-- `sys_core_init` up to `sys_event_bus_start`. -/
def sysCoreInit (s : Framework Tid K) (t : Thread (Caller Tid)) : Framework Tid K :=
  if s.core ≠ .stopped then { s with returned := some (.init, .state) }
  else
    { s with
      core := .starting
      frame := some ⟨.init, t, (s.bus.stack t).length, .busStart, .ok⟩ }

/-- `sys_core_shutdown` up to `sys_component_stop_all`. -/
def sysCoreShutdown (s : Framework Tid K) (t : Thread (Caller Tid)) : Framework Tid K :=
  if s.core ≠ .running then { s with returned := some (.shutdown, .state) }
  else
    { s with
      core := .stopping
      frame := some ⟨.shutdown, t, (s.bus.stack t).length, .components, .ok⟩ }

/-- The entry point calls the bus. -/
def busCall (s : Framework Tid K) (f : Frame Tid K) (k : K) : Option (Framework Tid K) :=
  if s.bus.calls k ≠ .notStarted then none
  else
    match f.point with
    | .busStart =>
      (Event.begin s.bus f.thread k .start).map fun b =>
        { s with
          bus := b
          frame := some { f with point := .inBusStart k }
          firstSubscription :=
            if b.calls k = .starting then b.globals.nextId else s.firstSubscription }
    | .busStop =>
      (Event.begin s.bus f.thread k .stop).map fun b =>
        { s with bus := b, frame := some { f with point := .inBusStop k } }
    | _ => none

/-- The entry point goes on after its call of the bus. -/
def busReturned (s : Framework Tid K) (f : Frame Tid K) (unjoined : Bool) :
    Option (Framework Tid K) :=
  match f.point with
  | .inBusStart k =>
    match s.bus.calls k with
    | .returned _ ret _ =>
      some { s with frame := some { f with
        point := if ret = .ok then .components else .busStop, ret := ret } }
    | _ => none
  | .inBusStop k =>
    match s.bus.calls k with
    | .returned _ ret _ =>
      some { s with frame := some { f with
        point := .finish
        ret := match f.entry with
          | .init => f.ret
          | .shutdown => shutdownResult f.ret ret unjoined } }
    | _ => none
  | _ => none

/-- The component pass of the entry point returns. -/
def componentsReturned (s : Framework Tid K) (f : Frame Tid K) (ret : SysErr) :
    Option (Framework Tid K) :=
  if f.point = .components ∧ (s.bus.stack f.thread).length = f.depth then
    some { s with frame := some { f with
      point := if f.entry = .init ∧ ret = .ok then .finish else .busStop, ret := ret } }
  else none

/-- The end of the entry point. -/
def finish (s : Framework Tid K) (f : Frame Tid K) : Option (Framework Tid K) :=
  if f.point = .finish then
    some { s with
      core := if f.entry = .init ∧ f.ret = .ok then .running else .stopped
      frame := none
      returned := some (f.entry, f.ret) }
  else none

/-- One atomic step. -/
def next (s : Framework Tid K) : CoreAction Tid K → Option (Framework Tid K)
  | .bus a => busStep s a
  | .init t => if s.inUserCode t = true then some (sysCoreInit s t) else none
  | .shutdown t => if s.inUserCode t = true then some (sysCoreShutdown s t) else none
  | .busCall k => s.frame.bind fun f => busCall s f k
  | .busReturned unjoined => s.frame.bind fun f => busReturned s f unjoined
  | .componentsReturned ret => s.frame.bind fun f => componentsReturned s f ret
  | .finish => s.frame.bind fun f => finish s f

/-- The steps, one by one, with what each finds. -/
inductive CoreStep (s : Framework Tid K) : CoreAction Tid K → Framework Tid K → Prop
  | bus {a s'} : busStep s a = some s' → CoreStep s (.bus a) s'
  /-- Both entry points begin in code of the application. -/
  | init {t} : s.inUserCode t = true → CoreStep s (.init t) (sysCoreInit s t)
  | shutdown {t} : s.inUserCode t = true → CoreStep s (.shutdown t) (sysCoreShutdown s t)
  | startCalled {f k b} : s.frame = some f → f.point = .busStart →
      s.bus.calls k = .notStarted → Event.begin s.bus f.thread k .start = some b →
      CoreStep s (.busCall k) { s with
        bus := b
        frame := some { f with point := .inBusStart k }
        firstSubscription :=
          if b.calls k = .starting then b.globals.nextId else s.firstSubscription }
  | stopCalled {f k b} : s.frame = some f → f.point = .busStop →
      s.bus.calls k = .notStarted → Event.begin s.bus f.thread k .stop = some b →
      CoreStep s (.busCall k) { s with bus := b, frame := some { f with point := .inBusStop k } }
  | startReturned {f k call ret out unjoined} : s.frame = some f → f.point = .inBusStart k →
      s.bus.calls k = .returned call ret out →
      CoreStep s (.busReturned unjoined) { s with frame := some { f with
        point := if ret = .ok then .components else .busStop, ret := ret } }
  | stopReturned {f k call ret out unjoined} : s.frame = some f → f.point = .inBusStop k →
      s.bus.calls k = .returned call ret out →
      CoreStep s (.busReturned unjoined) { s with frame := some { f with
        point := .finish
        ret := match f.entry with
          | .init => f.ret
          | .shutdown => shutdownResult f.ret ret unjoined } }
  | passReturned {f ret} : s.frame = some f → f.point = .components →
      (s.bus.stack f.thread).length = f.depth →
      CoreStep s (.componentsReturned ret) { s with frame := some { f with
        point := if f.entry = .init ∧ ret = .ok then .finish else .busStop, ret := ret } }
  | finished {f} : s.frame = some f → f.point = .finish →
      CoreStep s .finish { s with
        core := if f.entry = .init ∧ f.ret = .ok then .running else .stopped
        frame := none
        returned := some (f.entry, f.ret) }

/-- `next` does nothing else. -/
theorem next_cases {s s' : Framework Tid K} {a : CoreAction Tid K} (h : next s a = some s') :
    CoreStep s a s' := by
  cases a with
  | bus a => exact CoreStep.bus h
  | init t =>
      simp only [next] at h
      split at h
      · rename_i hcode
        obtain rfl := Option.some.inj h
        exact CoreStep.init hcode
      · cases h
  | shutdown t =>
      simp only [next] at h
      split at h
      · rename_i hcode
        obtain rfl := Option.some.inj h
        exact CoreStep.shutdown hcode
      · cases h
  | busCall k =>
      obtain ⟨f, hf, h⟩ := Option.bind_eq_some_iff.mp h
      unfold busCall at h
      split at h
      · cases h
      · rename_i hk
        have hk : s.bus.calls k = .notStarted := not_not.mp hk
        split at h
        · rename_i hpoint
          obtain ⟨b, hb, rfl⟩ := Option.map_eq_some_iff.mp h
          exact CoreStep.startCalled hf hpoint hk hb
        · rename_i hpoint
          obtain ⟨b, hb, rfl⟩ := Option.map_eq_some_iff.mp h
          exact CoreStep.stopCalled hf hpoint hk hb
        · cases h
  | busReturned unjoined =>
      obtain ⟨f, hf, h⟩ := Option.bind_eq_some_iff.mp h
      unfold busReturned at h
      split at h
      · rename_i k hpoint
        split at h
        · rename_i hk
          obtain rfl := Option.some.inj h
          exact CoreStep.startReturned hf hpoint hk
        · cases h
      · rename_i k hpoint
        split at h
        · rename_i hk
          obtain rfl := Option.some.inj h
          exact CoreStep.stopReturned hf hpoint hk
        · cases h
      · cases h
  | componentsReturned ret =>
      obtain ⟨f, hf, h⟩ := Option.bind_eq_some_iff.mp h
      unfold componentsReturned at h
      split at h
      · rename_i hcan
        obtain rfl := Option.some.inj h
        exact CoreStep.passReturned hf hcan.1 hcan.2
      · cases h
  | finish =>
      obtain ⟨f, hf, h⟩ := Option.bind_eq_some_iff.mp h
      unfold finish at h
      split at h
      · rename_i hpoint
        obtain rfl := Option.some.inj h
        exact CoreStep.finished hf hpoint
      · cases h

/-- The framework under all interleavings. -/
def coreMachine (Tid K : Type*) [DecidableEq Tid] [DecidableEq K] :
    Machine (Framework Tid K) (CoreAction Tid K) :=
  Machine.ofNext (fun s => s = Framework.zero Tid K) next

/-- The thread is executing a callback of the subscription `a`. -/
def Framework.Executing (s : Framework Tid K) (t : Thread (Caller Tid)) (a : Nat) : Prop :=
  (∃ k ∈ s.bus.stack t, ∃ d firstError, s.bus.calls k = .publishing d firstError ∧
    d.phase = .running ∧ d.pending.head? = some a) ∨
  (∃ k d, (t = .worker ∧ s.bus.worker = .delivering k d ∨
      ∃ n, t = .caller (.inr n) ∧ s.abandoned n = .delivering k d) ∧
    d.phase = .running ∧ d.pending.head? = some a)

end Functions

end Core
end AppCore
