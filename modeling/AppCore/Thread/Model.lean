/-
  AppCore.Thread.Model

  The managed threads of `core/sys_thread.c`: the objects, the two counters, the trampoline of
  every thread, and the calls of any number of threads, managed ones among them.  A section
  runs from one atomic operation, one allocation or one call of the thread library to the
  next.
-/

import AppCore.Event.System
import AppCore.Lib.Machine

namespace AppCore
namespace Thread

/-- `SYS_THREAD_NAME_CAPACITY`. -/
abbrev sysThreadNameCapacity : Nat := 16

/-- `struct sys_thread`.  `entry` stands for the function with its argument, `name` for the
    bytes before the end of the string. -/
structure SysThread (E : Type*) where
  /-- What `pthread_create` has stored. -/
  handle : Option Nat := none
  stopRequested : Bool := false
  entry : E
  name : List UInt8
deriving DecidableEq, Repr

/-- Where `thread_trampoline` is. -/
inductive Trampoline where
  /-- Before `pthread_setname_np`. -/
  | started
  /-- In `entry`. -/
  | running
  /-- `entry` has returned. -/
  | returning
  /-- It has returned, and nobody has joined the thread. -/
  | ended
deriving DecidableEq, Repr

/-- A thread of the thread library, with the argument of its trampoline. -/
structure Pthread where
  argument : Nat
  point : Trampoline := .started
deriving DecidableEq, Repr

/-- Who calls: a thread that is not managed, or a managed one in its `entry`. -/
inductive Caller (T : Type*) where
  | app (t : T)
  | managed (pthread : Nat)
deriving DecidableEq, Repr

/-- Where a call is. -/
inductive CallState where
  | idle
  /-- `sys_thread_create` has counted `thread` as active. -/
  | counted (thread : Nat)
  /-- Before `pthread_create`. -/
  | spawning (thread : Nat)
  /-- `pthread_create` has failed, and the call will return `ret`. -/
  | failed (thread : Nat) (ret : SysErr)
  /-- `thread` is not counted as active any more. -/
  | uncounting (thread : Nat) (ret : SysErr)
  /-- Before `free`. -/
  | freeing (thread : Nat) (ret : SysErr)
  /-- In the wait of `sys_thread_join`. -/
  | joining (thread : Nat) (timeoutMs : Int)
  /-- The wait has succeeded. -/
  | joined (thread : Nat)
  /-- `sys_thread_join` has freed the object. -/
  | freed
  /-- The call has returned `ret`, with `*out_thread`. -/
  | returned (ret : SysErr) (outThread : Option Nat)
deriving DecidableEq, Repr

/-- The threads of the process. -/
structure Threads (T E : Type*) where
  /-- `g_active_thread_count`. -/
  active : Nat := 0
  /-- `g_unjoined_thread_count`. -/
  unjoined : Nat := 0
  objects : Nat → Option (SysThread E) := fun _ => none
  pthreads : Nat → Option Pthread := fun _ => none
  calls : Caller T → CallState := fun _ => .idle

/-- The atomic steps. -/
inductive Event (T E : Type*) where
  /-- `sys_thread_create`; `memory` is what `calloc` finds, and `outThread` tells whether the
      pointer is not `NULL`. -/
  | create (c : Caller T) (name : Option (List UInt8)) (entry : Option E) (outThread : Bool)
      (memory : Option Nat)
  /-- `pthread_create` returns `ret`; if it is 0, the new thread is `pthread`. -/
  | spawn (c : Caller T) (ret : Int) (pthread : Nat)
  | requestStop (c : Caller T) (thread : Option Nat)
  /-- `sys_thread_join`, up to its wait. -/
  | join (c : Caller T) (thread : Option Nat) (timeoutMs : Int)
  /-- The wait returns `ret`. -/
  | joinReturned (c : Caller T) (ret : Int)
  /-- The next section of a call. -/
  | proceed (c : Caller T)
  /-- The caller has the result. -/
  | done (c : Caller T)
  /-- The trampoline calls `entry`. -/
  | enter (pthread : Nat)
  /-- `entry` returns. -/
  | leave (pthread : Nat)
  /-- The trampoline returns. -/
  | finish (pthread : Nat)
deriving DecidableEq, Repr

/-! ## The counters -/

/-- `atomic_fetch_add_explicit(counter, 1U, ..)`. -/
def fetchAdd (P : Platform) (counter : Nat) : Nat := P.wrap (counter + 1)

/-- `atomic_fetch_sub_explicit(counter, 1U, ..)`. -/
def fetchSub (P : Platform) (counter : Nat) : Nat := P.wrap (counter + P.sizeMax)

/-! ## The deadline of a join -/

/-- `struct timespec`. -/
structure Timespec where
  sec : Int
  nsec : Int
deriving DecidableEq, Repr

/-- `make_join_deadline`; `make_deadline` of `sys_channel.c` does the same. -/
def makeJoinDeadline (now : Timespec) (timeoutMs : Int) : Timespec :=
  let sec := now.sec + timeoutMs.tdiv 1000
  let nsec := now.nsec + timeoutMs.tmod 1000 * 1000000
  if nsec ≥ 1000000000 then { sec := sec + 1, nsec := nsec - 1000000000 }
  else { sec := sec, nsec := nsec }

/-- A clock shows less than a second of nanoseconds. -/
def Timespec.Normal (t : Timespec) : Prop := 0 ≤ t.nsec ∧ t.nsec < 1000000000

/-- The nanoseconds since the epoch. -/
def Timespec.total (t : Timespec) : Int := t.sec * 1000000000 + t.nsec

/-- The deadline of a wait with a timeout is exactly that much later, and a time the waits
    accept. -/
theorem makeJoinDeadline_spec {now : Timespec} {timeoutMs : Int} (hnow : now.Normal)
    (htimeout : 0 ≤ timeoutMs) :
    (makeJoinDeadline now timeoutMs).Normal ∧
      (makeJoinDeadline now timeoutMs).total = now.total + timeoutMs * 1000000 := by
  obtain ⟨hlow, hhigh⟩ := hnow
  have hdiv : timeoutMs.tdiv 1000 = timeoutMs / 1000 := Int.tdiv_eq_ediv_of_nonneg htimeout
  have hmod : timeoutMs.tmod 1000 = timeoutMs % 1000 := Int.tmod_eq_emod_of_nonneg htimeout
  have hsum : 1000 * (timeoutMs / 1000) + timeoutMs % 1000 = timeoutMs :=
    Int.mul_ediv_add_emod timeoutMs 1000
  have hnonneg : 0 ≤ timeoutMs % 1000 := Int.emod_nonneg _ (by decide)
  have hlt : timeoutMs % 1000 < 1000 := Int.emod_lt_of_pos _ (by decide)
  unfold makeJoinDeadline Timespec.Normal Timespec.total
  rw [hdiv, hmod]
  dsimp only
  split
  · refine ⟨⟨?_, ?_⟩, ?_⟩ <;> dsimp only <;> omega
  · refine ⟨⟨?_, ?_⟩, ?_⟩ <;> dsimp only <;> omega

/-! ## The calls -/

/-- `sys_thread_stop_requested`. -/
def sysThreadStopRequested {E : Type*} (thread : Option (SysThread E)) : Bool :=
  match thread with
  | none => true
  | some t => t.stopRequested

/-- `pthread_equal(handle, pthread_self())`. -/
def pthreadEqual {T : Type*} (handle : Option Nat) : Caller T → Bool
  | .app _ => false
  | .managed p => handle = some p

section Step

variable {T E : Type*} (P : Platform) [DecidableEq T]

/-- The call of `c` is now at `st`. -/
def Threads.setCall (s : Threads T E) (c : Caller T) (st : CallState) : Threads T E :=
  { s with calls := Function.update s.calls c st }

/-- The object `thread` is now `t`. -/
def Threads.setObject (s : Threads T E) (thread : Nat) (t : Option (SysThread E)) :
    Threads T E :=
  { s with objects := Function.update s.objects thread t }

/-- The thread `pthread` is now `q`. -/
def Threads.setPthread (s : Threads T E) (pthread : Nat) (q : Option Pthread) : Threads T E :=
  { s with pthreads := Function.update s.pthreads pthread q }

/-- A thread in its own code: a managed one is in its `entry`. -/
def Threads.CanCall (s : Threads T E) : Caller T → Prop
  | .app _ => True
  | .managed p => (s.pthreads p).map Pthread.point = some .running

instance (s : Threads T E) : ∀ c, Decidable (s.CanCall c)
  | .app _ => isTrue trivial
  | .managed p => inferInstanceAs (Decidable ((s.pthreads p).map Pthread.point = some .running))

/-- `sys_thread_create` up to the first addition. -/
def sysThreadCreate (s : Threads T E) (c : Caller T) (name : Option (List UInt8))
    (entry : Option E) (outThread : Bool) (memory : Option Nat) : Option (Threads T E) :=
  if outThread = false then some (s.setCall c (.returned .invalidParam none))
  else
    match name, entry with
    | some name, some entry =>
      if name = [] ∨ name.length ≥ sysThreadNameCapacity then
        some (s.setCall c (.returned .invalidParam none))
      else
        match memory with
        | none => some (s.setCall c (.returned .noMemory none))
        | some thread =>
          -- `calloc` finds memory that nobody uses
          if s.objects thread = none then
            some (({ s with active := fetchAdd P s.active }.setObject thread
              (some { entry := entry, name := name })).setCall c (.counted thread))
          else none
    | _, _ => some (s.setCall c (.returned .invalidParam none))

/-- `pthread_create`. -/
def spawnSection (s : Threads T E) (c : Caller T) (ret : Int) (pthread : Nat) :
    Option (Threads T E) :=
  match s.calls c with
  | .spawning thread =>
    if ret ≠ 0 then some (s.setCall c (.failed thread (sysErrorFromErrno ret)))
    else if s.pthreads pthread = none then
      (s.objects thread).map fun t =>
        ((s.setObject thread (some { t with handle := some pthread })).setPthread pthread
          (some { argument := thread })).setCall c (.returned .ok (some thread))
    else none
  | _ => none

/-- `sys_thread_request_stop`. -/
def sysThreadRequestStop (s : Threads T E) (thread : Option Nat) : Threads T E :=
  match thread with
  | none => s
  | some thread =>
    s.setObject thread ((s.objects thread).map fun t => { t with stopRequested := true })

/-- `sys_thread_join` up to its wait. -/
def sysThreadJoin (s : Threads T E) (c : Caller T) (thread : Option Nat) (timeoutMs : Int) :
    Option (Threads T E) :=
  match thread with
  | none => some (s.setCall c (.returned .invalidParam none))
  | some thread =>
    (s.objects thread).map fun t =>
      if pthreadEqual t.handle c then s.setCall c (.returned .busy none)
      else s.setCall c (.joining thread timeoutMs)

/-- `pthread_join`, `pthread_tryjoin_np` or `pthread_timedjoin_np`: it succeeds when the thread
    has ended. -/
def joinSection (s : Threads T E) (c : Caller T) (ret : Int) : Option (Threads T E) :=
  match s.calls c with
  | .joining thread _ =>
    if ret ≠ 0 then some (s.setCall c (.returned (Event.joinError ret) none))
    else
      (s.objects thread).bind fun t =>
        t.handle.bind fun p =>
          if (s.pthreads p).map Pthread.point = some .ended then
            some ((s.setPthread p none).setCall c (.joined thread))
          else none
  | _ => none

/-- The next section of a call. -/
def proceed (s : Threads T E) (c : Caller T) : Option (Threads T E) :=
  match s.calls c with
  | .counted thread =>
    some ({ s with unjoined := fetchAdd P s.unjoined }.setCall c (.spawning thread))
  | .failed thread ret =>
    some ({ s with active := fetchSub P s.active }.setCall c (.uncounting thread ret))
  | .uncounting thread ret =>
    some ({ s with unjoined := fetchSub P s.unjoined }.setCall c (.freeing thread ret))
  | .freeing thread ret => some ((s.setObject thread none).setCall c (.returned ret none))
  | .joined thread => some ((s.setObject thread none).setCall c .freed)
  | .freed =>
    some ({ s with unjoined := fetchSub P s.unjoined }.setCall c (.returned .ok none))
  | _ => none

/-- The trampoline of a thread goes from `a` to `b`. -/
def Threads.move (s : Threads T E) (pthread : Nat) (a b : Trampoline) : Option (Threads T E) :=
  match s.pthreads pthread with
  | none => none
  | some q => if q.point = a then some (s.setPthread pthread (some { q with point := b })) else none

/-- One atomic step. -/
def next (s : Threads T E) : Event T E → Option (Threads T E)
  | .create c name entry outThread memory =>
    if s.calls c = .idle ∧ s.CanCall c then sysThreadCreate P s c name entry outThread memory
    else none
  | .spawn c ret pthread => spawnSection s c ret pthread
  | .requestStop c thread =>
    if s.calls c = .idle ∧ s.CanCall c then some (sysThreadRequestStop s thread) else none
  | .join c thread timeoutMs =>
    if s.calls c = .idle ∧ s.CanCall c then sysThreadJoin s c thread timeoutMs else none
  | .joinReturned c ret => joinSection s c ret
  | .proceed c => proceed P s c
  | .done c =>
    match s.calls c with
    | .returned _ _ => some (s.setCall c .idle)
    | _ => none
  | .enter pthread => s.move pthread .started .running
  | .leave pthread =>
    if s.calls (.managed pthread) = .idle then s.move pthread .running .returning else none
  | .finish pthread =>
    (s.move pthread .returning .ended).map fun s => { s with active := fetchSub P s.active }

end Step

end Thread
end AppCore
