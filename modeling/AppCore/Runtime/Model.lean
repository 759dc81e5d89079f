/-
  AppCore.Runtime.Model

  `core/sys_runtime.c`: the runtime of an application that ends by a signal or by a request.
  Beside it the part of the kernel that it rests on: the signal mask of each thread, the pending
  signals of the process, and the descriptors of `signalfd` and `eventfd`.  Any number of
  threads call; a section runs from one system call to the next.
-/

import AppCore.Lib.Machine
import AppCore.Types

namespace AppCore
namespace Runtime

/-! ## Signals and descriptors -/

abbrev SIGINT : Nat := 2
abbrev SIGTERM : Nat := 15
abbrev EINTR : Int := 4
abbrev EBADF : Int := 9

/-- `sigset_t`. -/
abbrev SigSet := Nat → Bool

/-- The set that `sys_runtime_create` blocks. -/
def signalMask : SigSet := fun sig => sig = SIGINT || sig = SIGTERM

/-- The mask after `SIG_BLOCK`. -/
def SigSet.block (mask set : SigSet) : SigSet := fun sig => mask sig || set sig

/-- What a descriptor stands for. -/
inductive File where
  /-- `signalfd` of `signalMask`. -/
  | signal
  /-- `eventfd` with its counter. -/
  | stop (value : Nat)
deriving DecidableEq, Repr

/-- The greatest value of the counter of an `eventfd`. -/
def eventfdMax : Nat := 0xfffffffffffffffe

/-- `struct sys_runtime`; a descriptor of `-1` is `none`. -/
structure SysRuntime (T : Type*) where
  signalFd : Option Nat := none
  stopFd : Option Nat := none
  previousMask : SigSet
  owner : T

/-- Where a call is. -/
inductive CallState where
  | idle
  /-- Before `signalfd`. -/
  | opening (runtime : Nat)
  /-- Before `eventfd`; `errno` is what `signalfd` has left. -/
  | openingStop (runtime : Nat) (errno : Int)
  /-- In `sys_runtime_destroy`, called by `sys_runtime_create` if there is an `errno`, before
      the first `close`. -/
  | closing (runtime : Nat) (errno : Option Int)
  /-- Before the second `close`. -/
  | closingStop (runtime : Nat) (ret : SysErr) (errno : Option Int)
  /-- Before the mask is set. -/
  | restoring (runtime : Nat) (ret : SysErr) (errno : Option Int)
  /-- In `poll`. -/
  | polling (runtime : Nat) (timeoutMs : Int)
  /-- Before the `read` of the signal, or of the counter. -/
  | readingSignal (runtime : Nat)
  | readingStop (runtime : Nat)
  /-- The call has returned `ret`, with `*out_runtime`. -/
  | returned (ret : SysErr) (outRuntime : Option Nat)
deriving DecidableEq, Repr

/-- The process. -/
structure Process (T : Type*) where
  live : T → Bool
  masks : T → SigSet
  /-- Signals sent to the process that no thread has taken. -/
  pending : SigSet := fun _ => false
  files : Nat → Option File := fun _ => none
  runtimes : Nat → Option (SysRuntime T) := fun _ => none
  calls : T → CallState := fun _ => .idle
  /-- `SIGINT` or `SIGTERM` has ended the process. -/
  killed : Bool := false

/-- How `poll` returns. -/
inductive PollResult where
  | ready
  | timeout
  | error (errno : Int)
deriving DecidableEq, Repr

/-- The atomic steps. -/
inductive Event (T : Type*) where
  /-- `sys_runtime_create` up to the mask; `memory` is what `calloc` finds, `ret` what
      `pthread_sigmask` returns, and `outRuntime` tells whether the pointer is not `NULL`. -/
  | create (t : T) (outRuntime : Bool) (memory : Option Nat) (ret : Int)
  /-- `signalfd` or `eventfd` returns a descriptor, or an error. -/
  | opened (t : T) (result : Except Int Nat)
  /-- `close` returns; `errno` is 0 if it succeeds. -/
  | closed (t : T) (errno : Int)
  /-- `pthread_sigmask` returns `ret`. -/
  | restored (t : T) (ret : Int)
  | destroy (t : T) (runtime : Option Nat)
  | wait (t : T) (runtime : Option Nat) (timeoutMs : Int)
  | polled (t : T) (result : PollResult)
  | read (t : T)
  | requestStop (t : T) (runtime : Option Nat)
  /-- The caller has the result. -/
  | done (t : T)
  /-- Somebody sends a signal to the process. -/
  | kill (sig : Nat)
  /-- A thread that does not block a pending signal takes it. -/
  | deliver (t : T) (sig : Nat)
  /-- A thread starts another one, which has its mask. -/
  | spawn (t t' : T)
  | exit (t : T)

/-! ## The results -/

/-- What a failed step of `sys_runtime_destroy` leaves in `ret`. -/
def keepFirst (ret : SysErr) (errno : Int) : SysErr :=
  if errno ≠ 0 ∧ ret = .ok then sysErrorFromErrno errno else ret

/-- What `sys_runtime_destroy` returns, or `sys_runtime_create` after it. -/
def destroyResult (ret : SysErr) (errno : Option Int) : SysErr :=
  match errno with
  | none => ret
  | some errno => if ret = .ok then sysErrorFromErrno errno else ret

/-- The result of a `poll` that fails. -/
def pollError (errno : Int) : SysErr :=
  if errno = EINTR then .wouldBlock else sysErrorFromErrno errno

/-! ## The steps -/

section Step

variable {T : Type*} [DecidableEq T]

def Process.setCall (s : Process T) (t : T) (st : CallState) : Process T :=
  { s with calls := Function.update s.calls t st }

def Process.setMask (s : Process T) (t : T) (mask : SigSet) : Process T :=
  { s with masks := Function.update s.masks t mask }

omit [DecidableEq T] in
def Process.setFile (s : Process T) (fd : Nat) (f : Option File) : Process T :=
  { s with files := Function.update s.files fd f }

omit [DecidableEq T] in
def Process.setRuntime (s : Process T) (runtime : Nat) (x : Option (SysRuntime T)) :
    Process T :=
  { s with runtimes := Function.update s.runtimes runtime x }

omit [DecidableEq T] in
/-- `close`; the descriptor is gone whatever it returns. -/
def Process.close (s : Process T) : Option Nat → Process T
  | none => s
  | some fd => s.setFile fd none

/-- `sys_runtime_create` up to the mask. -/
def sysRuntimeCreate (s : Process T) (t : T) (outRuntime : Bool) (memory : Option Nat)
    (ret : Int) : Option (Process T) :=
  if outRuntime = false then some (s.setCall t (.returned .invalidParam none))
  else
    match memory with
    | none => some (s.setCall t (.returned .noMemory none))
    | some r =>
      if s.runtimes r ≠ none then none
      else if ret ≠ 0 then some (s.setCall t (.returned (sysErrorFromErrno ret) none))
      else
        some (((s.setRuntime r (some { previousMask := s.masks t, owner := t })).setMask t
          ((s.masks t).block signalMask)).setCall t (.opening r))

/-- `signalfd`, then `eventfd`. -/
def openSection (s : Process T) (t : T) (result : Except Int Nat) : Option (Process T) :=
  match s.calls t with
  | .opening r =>
    (s.runtimes r).bind fun x =>
      match result with
      | .error errno => some (s.setCall t (.openingStop r errno))
      | .ok fd =>
        if s.files fd ≠ none then none
        else
          some (((s.setFile fd (some .signal)).setRuntime r
            (some { x with signalFd := some fd })).setCall t (.openingStop r 0))
  | .openingStop r errno =>
    (s.runtimes r).bind fun x =>
      match result with
      | .error errno => some (s.setCall t (.closing r (some errno)))
      | .ok fd =>
        if s.files fd ≠ none then none
        else
          some (((s.setFile fd (some (.stop 0))).setRuntime r
            (some { x with stopFd := some fd })).setCall t
              (if x.signalFd = none then .closing r (some errno) else .returned .ok (some r)))
  | _ => none

/-- The two calls of `close`, each if there is a descriptor. -/
def closeSection (s : Process T) (t : T) (errno : Int) : Option (Process T) :=
  match s.calls t with
  | .closing r creating =>
    (s.runtimes r).map fun x =>
      (s.close x.signalFd).setCall t
        (.closingStop r (if x.signalFd = none then .ok else keepFirst .ok errno) creating)
  | .closingStop r ret creating =>
    (s.runtimes r).map fun x =>
      (s.close x.stopFd).setCall t
        (.restoring r (if x.stopFd = none then ret else keepFirst ret errno) creating)
  | _ => none

/-- The end of `sys_runtime_destroy`. -/
def restoreSection (s : Process T) (t : T) (maskRet : Int) : Option (Process T) :=
  match s.calls t with
  | .restoring r ret creating =>
    (s.runtimes r).map fun x =>
      ((if maskRet = 0 then s.setMask t x.previousMask else s).setRuntime r none).setCall t
        (.returned (destroyResult (keepFirst ret maskRet) creating) none)
  | _ => none

/-- `sys_runtime_destroy` up to the first `close`. -/
def sysRuntimeDestroy (s : Process T) (t : T) (runtime : Option Nat) : Option (Process T) :=
  match runtime with
  | none => some (s.setCall t (.returned .invalidParam none))
  | some r =>
    (s.runtimes r).map fun x =>
      if x.owner ≠ t then s.setCall t (.returned .state none) else s.setCall t (.closing r none)

/-- `POLLIN` of a descriptor, or `POLLNVAL` when there is none. -/
def Process.readable (s : Process T) (fd : Option Nat) : Option Bool :=
  (fd.bind s.files).map fun
    | .signal => s.pending SIGINT || s.pending SIGTERM
    | .stop value => 0 < value

/-- The return of `poll`. -/
def pollSection (s : Process T) (t : T) (result : PollResult) : Option (Process T) :=
  match s.calls t with
  | .polling r timeoutMs =>
    (s.runtimes r).bind fun x =>
      let signal := s.readable x.signalFd
      let stop := s.readable x.stopFd
      match result with
      | .error errno => some (s.setCall t (.returned (pollError errno) none))
      | .timeout =>
        if 0 ≤ timeoutMs ∧ signal = some false ∧ stop = some false then
          some (s.setCall t (.returned .timeout none))
        else none
      | .ready =>
        if signal = some true then some (s.setCall t (.readingSignal r))
        else if stop = some true then some (s.setCall t (.readingStop r))
        else if signal = none ∨ stop = none then some (s.setCall t (.returned .io none))
        else none
  | _ => none

/-- `read` of the signal, the lower one first, or of the counter. -/
def readSection (s : Process T) (t : T) : Option (Process T) :=
  match s.calls t with
  | .readingSignal _ =>
    if s.pending SIGINT then
      some ({ s with pending := Function.update s.pending SIGINT false }.setCall t
        (.returned .cancelled none))
    else if s.pending SIGTERM then
      some ({ s with pending := Function.update s.pending SIGTERM false }.setCall t
        (.returned .cancelled none))
    else some (s.setCall t (.returned (sysErrorFromErrno EAGAIN) none))
  | .readingStop r =>
    (s.runtimes r).bind fun x =>
      x.stopFd.bind fun fd =>
        match s.files fd with
        | some (.stop value) =>
          if 0 < value then
            some ((s.setFile fd (some (.stop 0))).setCall t (.returned .cancelled none))
          else some (s.setCall t (.returned (sysErrorFromErrno EAGAIN) none))
        | _ => some (s.setCall t (.returned (sysErrorFromErrno EBADF) none))
  | _ => none

/-- `sys_runtime_request_stop`. -/
def sysRuntimeRequestStop (s : Process T) (t : T) (runtime : Option Nat) : Option (Process T) :=
  match runtime with
  | none => some (s.setCall t (.returned .invalidParam none))
  | some r =>
    (s.runtimes r).map fun x =>
      match x.stopFd with
      | none => s.setCall t (.returned (sysErrorFromErrno EBADF) none)
      | some fd =>
        match s.files fd with
        | some (.stop value) =>
          if value + 1 ≤ eventfdMax then
            (s.setFile fd (some (.stop (value + 1)))).setCall t (.returned .ok none)
          else s.setCall t (.returned (sysErrorFromErrno EAGAIN) none)
        | _ => s.setCall t (.returned (sysErrorFromErrno EBADF) none)

/-- A thread that runs and is not in a call. -/
def Process.Free (s : Process T) (t : T) : Prop := s.live t = true ∧ s.calls t = .idle

instance (s : Process T) (t : T) : Decidable (s.Free t) :=
  inferInstanceAs (Decidable (_ ∧ _))

/-- A step of the threads and of the kernel while the process lives. -/
def step (s : Process T) : Event T → Option (Process T)
  | .create t outRuntime memory ret =>
    if s.Free t then sysRuntimeCreate s t outRuntime memory ret else none
  | .opened t result => openSection s t result
  | .closed t errno => closeSection s t errno
  | .restored t ret => restoreSection s t ret
  | .destroy t runtime => if s.Free t then sysRuntimeDestroy s t runtime else none
  | .wait t runtime timeoutMs =>
    if s.Free t then
      match runtime with
      | none => some (s.setCall t (.returned .invalidParam none))
      | some r => some (s.setCall t (.polling r timeoutMs))
    else none
  | .polled t result => pollSection s t result
  | .read t => readSection s t
  | .requestStop t runtime => if s.Free t then sysRuntimeRequestStop s t runtime else none
  | .done t =>
    match s.calls t with
    | .returned _ _ => some (s.setCall t .idle)
    | _ => none
  | .kill sig => some { s with pending := Function.update s.pending sig true }
  | .deliver t sig =>
    if s.live t = true ∧ s.pending sig = true ∧ s.masks t sig = false then
      some { s with
        pending := Function.update s.pending sig false
        killed := signalMask sig }
    else none
  | .spawn t t' =>
    if s.Free t ∧ s.live t' = false then
      some ({ s with live := Function.update s.live t' true }.setMask t' (s.masks t))
    else none
  | .exit t => if s.Free t then some { s with live := Function.update s.live t false } else none

/-- One step; the process does nothing after a signal has ended it. -/
def next (s : Process T) (e : Event T) : Option (Process T) :=
  if s.killed = true then none else step s e

end Step

end Runtime
end AppCore
