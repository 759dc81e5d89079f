/-
  AppCore.Types

  The common error codes of the framework (`core/sys_types.h`) and the mapping
  from `errno` values (`core/sys_types.c`).
-/

import Mathlib.Logic.Basic

namespace AppCore

/-- `sys_err_t`. -/
inductive SysErr where
  | ok
  | generic
  | notFound
  | notSupported
  | invalidParam
  | noMemory
  | alreadyExists
  | busy
  | timeout
  | queueFull
  | closed
  | dependency
  | state
  | abiMismatch
  | wouldBlock
  | cancelled
  | overflow
  | io
  | permission
deriving DecidableEq, Repr

/-- The sizes of the platform that the code's arithmetic depends on: `SIZE_MAX`,
    `UINT_MAX`, `sizeof(sys_buffer_t *)` and `sizeof(sys_buffer_t)`. -/
structure Platform where
  sizeMax : Nat
  uintMax : Nat
  pointerSize : Nat
  bufferSize : Nat
  two_le_pointerSize : 2 ≤ pointerSize
  bufferSize_pos : 0 < bufferSize

/-- The value of a sum in `size_t`. -/
def Platform.wrap (P : Platform) (x : Nat) : Nat := x % (P.sizeMax + 1)

theorem Platform.wrap_of_le {P : Platform} {x : Nat} (h : x ≤ P.sizeMax) : P.wrap x = x :=
  Nat.mod_eq_of_lt (Nat.lt_succ_of_le h)

/-- A 64-bit platform. -/
def Platform.lp64 : Platform where
  sizeMax := 0xFFFFFFFFFFFFFFFF
  uintMax := 0xFFFFFFFF
  pointerSize := 8
  bufferSize := 72
  two_le_pointerSize := Nat.le_add_left 2 6
  bufferSize_pos := Nat.succ_pos 71

/-- A 32-bit platform. -/
def Platform.ilp32 : Platform where
  sizeMax := 0xFFFFFFFF
  uintMax := 0xFFFFFFFF
  pointerSize := 4
  bufferSize := 56
  two_le_pointerSize := Nat.le_add_left 2 2
  bufferSize_pos := Nat.succ_pos 55

/-! ## errno values (Linux) used by `sys_error_from_errno` -/

abbrev EPERM : Int := 1
abbrev ENOENT : Int := 2
abbrev EIO : Int := 5
abbrev EAGAIN : Int := 11
abbrev ENOMEM : Int := 12
abbrev EACCES : Int := 13
abbrev EBUSY : Int := 16
abbrev EEXIST : Int := 17
abbrev EINVAL : Int := 22
abbrev EOVERFLOW : Int := 75
abbrev ETIMEDOUT : Int := 110
abbrev ECANCELED : Int := 125

/-- `sys_error_from_errno`. -/
def sysErrorFromErrno (errorNumber : Int) : SysErr :=
  if errorNumber = 0 then .ok
  else if errorNumber = EINVAL then .invalidParam
  else if errorNumber = ENOMEM then .noMemory
  else if errorNumber = ENOENT then .notFound
  else if errorNumber = EEXIST then .alreadyExists
  else if errorNumber = EBUSY then .busy
  else if errorNumber = ETIMEDOUT then .timeout
  else if errorNumber = EAGAIN then .wouldBlock
  else if errorNumber = ECANCELED then .cancelled
  else if errorNumber = EOVERFLOW then .overflow
  else if errorNumber = EACCES ∨ errorNumber = EPERM then .permission
  else if errorNumber = EIO then .io
  else .generic

theorem ite_ne {p : Prop} [Decidable p] {a b c : SysErr} (ha : a ≠ c) (hb : b ≠ c) :
    (if p then a else b) ≠ c := by
  split
  · exact ha
  · exact hb

theorem sysErrorFromErrno_ne_closed (n : Int) : sysErrorFromErrno n ≠ .closed := by
  unfold sysErrorFromErrno
  repeat' apply ite_ne
  all_goals decide

end AppCore
