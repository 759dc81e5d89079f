/-
  AppCore.Service.Model

  The service registry of `core/sys_service.c`.  Each function is one critical
  section of `g_service_mutex`; `sys_service_unregister` and
  `sys_service_registry_reset` are split at their waits, since they give up the
  mutex there.  A slot pointer is the index of the slot.

  `outstanding` does not exist in the program: it records, for every acquire that
  returned `SYS_OK` and has not been released, the slot and the descriptor that
  was checked.
-/

import AppCore.Types
import AppCore.Lib.Machine
import Mathlib.Logic.Function.Basic

namespace AppCore
namespace Service

/-- `SYS_SERVICE_MAX_ENTRIES`. -/
abbrev serviceMaxEntries : Nat := 64

/-- `sys_service_desc_t`.  `ops` is an address, `0` for `NULL`. -/
structure ServiceDesc where
  moduleId : UInt32 := 0
  interfaceId : UInt32 := 0
  abiVersion : UInt32 := 0
  opsSize : Nat := 0
  ops : Nat := 0
  name : Option String := none
deriving DecidableEq, Repr

/-- A descriptor of version 1 with eight bytes of operations. -/
def ServiceDesc.sample (moduleId interfaceId : UInt32) : ServiceDesc where
  moduleId := moduleId
  interfaceId := interfaceId
  abiVersion := 1
  opsSize := 8
  ops := 4096
  name := some "service"

/-- `(module_id, interface_id)`. -/
def ServiceDesc.key (desc : ServiceDesc) : UInt32 × UInt32 :=
  (desc.moduleId, desc.interfaceId)

/-- `sys_service_slot_t`. -/
structure ServiceSlot where
  used : Bool := false
  accepting : Bool := false
  referenceCount : Nat := 0
  desc : ServiceDesc := {}
deriving DecidableEq, Repr

/-- `sys_service_ref_t`.  `internal` is the slot the reference points to. -/
structure ServiceRef where
  ops : Nat := 0
  internal : Option (Fin serviceMaxEntries) := none
deriving DecidableEq, Repr

/-- `g_service_slots`. -/
abbrev Slots := Fin serviceMaxEntries → ServiceSlot

/-! ## The functions of the registry -/

/-- The first slot for which `P` holds. -/
def firstSlot (P : Fin serviceMaxEntries → Bool) : Option (Fin serviceMaxEntries) :=
  (List.finRange serviceMaxEntries).find? P

/-- `find_service`. -/
def findService (slots : Slots) (moduleId interfaceId : UInt32) :
    Option (Fin serviceMaxEntries) :=
  firstSlot fun x => (slots x).used && (slots x).desc.moduleId = moduleId &&
    (slots x).desc.interfaceId = interfaceId

/-- `sys_service_register`.  `desc` is `none` for a `NULL` argument. -/
def sysServiceRegister (desc : Option ServiceDesc) (slots : Slots) : SysErr × Slots :=
  match desc with
  | none => (.invalidParam, slots)
  | some desc =>
    if desc.moduleId = 0 ∨ desc.interfaceId = 0 ∨ desc.abiVersion = 0 ∨ desc.ops = 0 ∨
        desc.opsSize = 0 ∨ desc.name = none then (.invalidParam, slots)
    else if (findService slots desc.moduleId desc.interfaceId).isSome then
      (.alreadyExists, slots)
    else
      match firstSlot fun x => !(slots x).used with
      | none => (.noMemory, slots)
      | some x =>
        (.ok, Function.update slots x
          { used := true, accepting := true, referenceCount := 0, desc := desc })

/-- The slot a registration goes to, if it is not refused. -/
def registerSlot (desc : ServiceDesc) (slots : Slots) : Option (Fin serviceMaxEntries) :=
  if desc.moduleId = 0 ∨ desc.interfaceId = 0 ∨ desc.abiVersion = 0 ∨ desc.ops = 0 ∨
      desc.opsSize = 0 ∨ desc.name = none ∨
      (findService slots desc.moduleId desc.interfaceId).isSome then none
  else firstSlot fun x => !(slots x).used

/-- The wait loop of `sys_service_unregister` and what follows it; `none` when it
    waits. -/
def unregisterLoop (x : Fin serviceMaxEntries) (slots : Slots) : Option SysErr × Slots :=
  if (slots x).referenceCount ≠ 0 then (none, slots)
  else (some .ok, Function.update slots x {})

/-- `sys_service_unregister` up to its first wait.  The third result is the slot it
    found. -/
def sysServiceUnregister (moduleId interfaceId : UInt32) (slots : Slots) :
    Option SysErr × Slots × Option (Fin serviceMaxEntries) :=
  match findService slots moduleId interfaceId with
  | none => (some .notFound, slots, none)
  | some x =>
    let (ret, slots) := unregisterLoop x
      (Function.update slots x { slots x with accepting := false })
    (ret, slots, some x)

/-- `sys_service_acquire`.  `outRef` is the reference to be filled in, `none` for a
    `NULL` pointer; `sizeMax` is `SIZE_MAX`. -/
def sysServiceAcquire (sizeMax : Nat) (moduleId interfaceId abiVersion : UInt32)
    (minimumOpsSize : Nat) (outRef : Option ServiceRef) (slots : Slots) :
    SysErr × Slots × Option ServiceRef :=
  match outRef with
  | none => (.invalidParam, slots, none)
  | some _ =>
    let outRef : ServiceRef := { ops := 0, internal := none }
    if moduleId = 0 ∨ interfaceId = 0 ∨ abiVersion = 0 ∨ minimumOpsSize = 0 then
      (.invalidParam, slots, some outRef)
    else
      match findService slots moduleId interfaceId with
      | none => (.notFound, slots, some outRef)
      | some x =>
        let slot := slots x
        if slot.accepting = false then (.notFound, slots, some outRef)
        else if slot.desc.abiVersion ≠ abiVersion ∨ slot.desc.opsSize < minimumOpsSize then
          (.abiMismatch, slots, some outRef)
        else if slot.referenceCount = sizeMax then (.overflow, slots, some outRef)
        else
          (.ok, Function.update slots x { slot with referenceCount := slot.referenceCount + 1 },
            some { ops := slot.desc.ops, internal := some x })

/-- `sys_service_release`.  `ref` is `none` for a `NULL` pointer. -/
def sysServiceRelease (ref : Option ServiceRef) (slots : Slots) : Slots × Option ServiceRef :=
  match ref with
  | none => (slots, none)
  | some ref =>
    match ref.internal with
    | none => (slots, some ref)
    | some x =>
      let slot := slots x
      let slots := if slot.referenceCount > 0 then
          Function.update slots x { slot with referenceCount := slot.referenceCount - 1 }
        else slots
      (slots, some { ops := 0, internal := none })

/-- The loop of `sys_service_registry_reset` and what follows it; `none` when it
    waits. -/
def resetLoop (slots : Slots) : Option SysErr × Slots :=
  if (firstSlot fun x => (slots x).referenceCount ≠ 0).isSome then (none, slots)
  else (some .ok, fun _ => {})

/-- `sys_service_registry_reset` up to its first wait. -/
def sysServiceRegistryReset (slots : Slots) : Option SysErr × Slots :=
  resetLoop fun x => { slots x with accepting := false }

/-! ## The registry and its callers -/

/-- Where a thread is. -/
inductive WaitState where
  | idle
  /-- In the wait of `sys_service_unregister(module_id, interface_id)`, with the slot
      pointer it keeps. -/
  | unregister (moduleId interfaceId : UInt32) (slot : Fin serviceMaxEntries)
  /-- In the wait of `sys_service_registry_reset`. -/
  | reset
deriving DecidableEq, Repr

/-- A reference returned by an acquire and not released yet. -/
structure Holding where
  serial : Nat
  slot : Fin serviceMaxEntries
  desc : ServiceDesc
deriving DecidableEq, Repr

/-- The registry, its waiting threads and the references its callers hold. -/
structure Registry (Tid : Type*) where
  slots : Slots
  waiting : Tid → WaitState
  outstanding : List Holding
  serial : Nat

/-- The critical sections, with the thread that runs them. -/
inductive Event (Tid : Type*) where
  | register (t : Tid) (desc : Option ServiceDesc)
  | acquire (t : Tid) (moduleId interfaceId abiVersion : UInt32) (minimumOpsSize : Nat)
      (outRef : Option ServiceRef)
  /-- The release of a reference that is held. -/
  | release (t : Tid) (holding : Holding)
  /-- A release that is handed `NULL` or a reference without a slot. -/
  | releaseNull (t : Tid) (ref : Option ServiceRef)
  | unregister (t : Tid) (moduleId interfaceId : UInt32)
  | reset (t : Tid)
  /-- A thread returns from `pthread_cond_wait`, for whatever reason. -/
  | wake (t : Tid)
deriving DecidableEq, Repr

section Step

variable {Tid : Type*} [DecidableEq Tid] (sizeMax : Nat)

/-- A thread goes on to wait, or returns. -/
def Registry.park (s : Registry Tid) (t : Tid) (w : WaitState) (ret : Option SysErr) :
    Registry Tid :=
  { s with waiting := Function.update s.waiting t (if ret = none then w else .idle) }

/-- The reference object of a holding. -/
def Holding.ref (h : Holding) : ServiceRef :=
  { ops := h.desc.ops, internal := some h.slot }

/-- The critical section of a thread that is not waiting, with the return code
    (`none` when it goes on to wait). -/
def enter (s : Registry Tid) : Event Tid → Option (Option SysErr × Registry Tid)
  | .register _ desc =>
    let (ret, slots) := sysServiceRegister desc s.slots
    some (some ret, { s with slots := slots })
  | .acquire _ moduleId interfaceId abiVersion minimumOpsSize outRef =>
    let (ret, slots, ref) :=
      sysServiceAcquire sizeMax moduleId interfaceId abiVersion minimumOpsSize outRef s.slots
    match ref.bind (·.internal) with
    | none => some (some ret, { s with slots := slots })
    | some x =>
      some (some ret, { s with
        slots := slots
        outstanding := ⟨s.serial, x, (s.slots x).desc⟩ :: s.outstanding
        serial := s.serial + 1 })
  | .release _ holding =>
    if holding ∈ s.outstanding then
      some (some .ok, { s with
        slots := (sysServiceRelease (some holding.ref) s.slots).1
        outstanding := s.outstanding.erase holding })
    else none
  | .releaseNull _ ref =>
    if ref.bind (·.internal) = none then
      some (some .ok, { s with slots := (sysServiceRelease ref s.slots).1 })
    else none
  | .unregister t moduleId interfaceId =>
    let (ret, slots, found) := sysServiceUnregister moduleId interfaceId s.slots
    match found with
    | none => some (ret, { s with slots := slots })
    | some x =>
      some (ret, Registry.park { s with slots := slots } t
        (.unregister moduleId interfaceId x) ret)
  | .reset t =>
    let (ret, slots) := sysServiceRegistryReset s.slots
    some (ret, Registry.park { s with slots := slots } t .reset ret)
  | .wake _ => none

/-- The critical section of a thread that returns from its wait. -/
def resume (s : Registry Tid) (t : Tid) : Option (Option SysErr × Registry Tid) :=
  match s.waiting t with
  | .idle => none
  | .unregister moduleId interfaceId x =>
    let (ret, slots) := unregisterLoop x s.slots
    some (ret, Registry.park { s with slots := slots } t
      (.unregister moduleId interfaceId x) ret)
  | .reset =>
    let (ret, slots) := resetLoop s.slots
    some (ret, Registry.park { s with slots := slots } t .reset ret)

/-- The thread of an event. -/
def Event.thread : Event Tid → Tid
  | .register t _ => t
  | .acquire t _ _ _ _ _ => t
  | .release t _ => t
  | .releaseNull t _ => t
  | .unregister t _ _ => t
  | .reset t => t
  | .wake t => t

/-- One critical section: the return code, if the call returns, and the new state. -/
def criticalSection (s : Registry Tid) (e : Event Tid) :
    Option (Option SysErr × Registry Tid) :=
  match e with
  | .wake t => resume s t
  | e => if s.waiting e.thread = .idle then enter sizeMax s e else none

/-- The registry before the first call. -/
def Registry.zero : Registry Tid where
  slots := fun _ => {}
  waiting := fun _ => .idle
  outstanding := []
  serial := 0

/-- The state after a critical section. -/
def next (s : Registry Tid) (e : Event Tid) : Option (Registry Tid) :=
  (criticalSection sizeMax s e).map (·.2)

/-- The registry under all interleavings of its callers. -/
def registryMachine (Tid : Type*) [DecidableEq Tid] (sizeMax : Nat) :
    Machine (Registry Tid) (Event Tid) :=
  Machine.ofNext (fun s => s = Registry.zero) (next sizeMax)

/-! ## What a critical section can do -/

/-- The slots with all services closed for new references. -/
def closedSlots (slots : Slots) : Slots := fun x => { slots x with accepting := false }

/-- The effects of a critical section. -/
inductive Effect (s : Registry Tid) : Event Tid → Option SysErr → Registry Tid → Prop
  /-- A call that is refused or that keeps waiting. -/
  | unchanged {e ret} : Effect s e ret s
  | registered {t desc x} : registerSlot desc s.slots = some x →
      (s.slots x).used = false →
      (∀ y, (s.slots y).used = true → (s.slots y).desc.key ≠ desc.key) →
      Effect s (.register t (some desc)) (some .ok)
        { s with slots := Function.update s.slots x ⟨true, true, 0, desc⟩ }
  | acquired {t moduleId interfaceId abiVersion minimumOpsSize r x} :
      (s.slots x).used = true → (s.slots x).accepting = true →
      (s.slots x).desc.key = (moduleId, interfaceId) →
      (s.slots x).desc.abiVersion = abiVersion →
      minimumOpsSize ≤ (s.slots x).desc.opsSize →
      Effect s (.acquire t moduleId interfaceId abiVersion minimumOpsSize (some r)) (some .ok)
        { s with
          slots := Function.update s.slots x
            { s.slots x with referenceCount := (s.slots x).referenceCount + 1 }
          outstanding := ⟨s.serial, x, (s.slots x).desc⟩ :: s.outstanding
          serial := s.serial + 1 }
  | released {t h} : h ∈ s.outstanding →
      Effect s (.release t h) (some .ok)
        { s with
          slots := Function.update s.slots h.slot
            { s.slots h.slot with referenceCount := (s.slots h.slot).referenceCount - 1 }
          outstanding := s.outstanding.erase h }
  /-- `sys_service_unregister` closes the slot it found and waits. -/
  | closing {t moduleId interfaceId x} : (s.slots x).used = true →
      (s.slots x).desc.key = (moduleId, interfaceId) →
      Effect s (.unregister t moduleId interfaceId) none
        { s with
          slots := Function.update s.slots x { s.slots x with accepting := false }
          waiting := Function.update s.waiting t (.unregister moduleId interfaceId x) }
  /-- `sys_service_unregister` clears the slot it found at once. -/
  | unregistered {t moduleId interfaceId x} : (s.slots x).used = true →
      (s.slots x).desc.key = (moduleId, interfaceId) → (s.slots x).referenceCount = 0 →
      Effect s (.unregister t moduleId interfaceId) (some .ok)
        { s with
          slots := Function.update s.slots x {}
          waiting := Function.update s.waiting t .idle }
  /-- `sys_service_unregister` clears the slot it kept a pointer to. -/
  | woken {t moduleId interfaceId x} : s.waiting t = .unregister moduleId interfaceId x →
      (s.slots x).referenceCount = 0 →
      Effect s (.wake t) (some .ok)
        { s with
          slots := Function.update s.slots x {}
          waiting := Function.update s.waiting t .idle }
  | resetting {t} : Effect s (.reset t) none
        { s with
          slots := closedSlots s.slots
          waiting := Function.update s.waiting t .reset }
  | resetDone {e t} : (e = .reset t ∨ (e = .wake t ∧ s.waiting t = .reset)) →
      (∀ x, (s.slots x).referenceCount = 0) →
      Effect s e (some .ok)
        { s with
          slots := fun _ => {}
          waiting := Function.update s.waiting t .idle }

variable {sizeMax}

theorem firstSlot_eq_some {P : Fin serviceMaxEntries → Bool} {x : Fin serviceMaxEntries}
    (h : firstSlot P = some x) : P x = true := List.find?_some h

theorem firstSlot_isSome_iff (P : Fin serviceMaxEntries → Bool) :
    (firstSlot P).isSome ↔ ∃ x, P x = true := by
  rw [firstSlot, List.find?_isSome]
  simp

theorem findService_eq_some {slots : Slots} {moduleId interfaceId : UInt32}
    {x : Fin serviceMaxEntries} (h : findService slots moduleId interfaceId = some x) :
    (slots x).used = true ∧ (slots x).desc.key = (moduleId, interfaceId) := by
  have hx := firstSlot_eq_some h
  simp only [Bool.and_eq_true, decide_eq_true_eq] at hx
  obtain ⟨⟨hused, hm⟩, hi⟩ := hx
  exact ⟨hused, by rw [ServiceDesc.key, hm, hi]⟩

/-- No used slot has the key that `find_service` does not find. -/
theorem findService_isSome_iff (slots : Slots) (moduleId interfaceId : UInt32) :
    (findService slots moduleId interfaceId).isSome ↔
      ∃ x, (slots x).used = true ∧ (slots x).desc.key = (moduleId, interfaceId) := by
  rw [findService, firstSlot_isSome_iff]
  refine exists_congr fun x => ?_
  simp [ServiceDesc.key, Prod.ext_iff, and_assoc]

section Effects

variable {s s' : Registry Tid} {e : Event Tid} {ret : Option SysErr} {t : Tid}

theorem resetLoop_effect (slots : Slots) :
    (resetLoop slots = (none, slots) ∧ ∃ x, (slots x).referenceCount ≠ 0) ∨
      (resetLoop slots = (some .ok, fun _ => {}) ∧ ∀ x, (slots x).referenceCount = 0) := by
  have hiff := firstSlot_isSome_iff fun x => decide ((slots x).referenceCount ≠ 0)
  simp only [decide_eq_true_eq] at hiff
  unfold resetLoop
  by_cases hr : ∃ x, (slots x).referenceCount ≠ 0
  · left
    rw [if_pos (hiff.mpr hr)]
    exact ⟨rfl, hr⟩
  · right
    rw [if_neg (fun h => hr (hiff.mp h))]
    push Not at hr
    exact ⟨rfl, hr⟩

/-- A registration goes to the slot `registerSlot` names, or is refused. -/
theorem sysServiceRegister_spec (desc : ServiceDesc) (slots : Slots) :
    (∃ x, registerSlot desc slots = some x ∧ (slots x).used = false ∧
        (∀ y, (slots y).used = true → (slots y).desc.key ≠ desc.key) ∧
        sysServiceRegister (some desc) slots =
          (.ok, Function.update slots x ⟨true, true, 0, desc⟩)) ∨
      ∃ ret, ret ≠ .ok ∧ sysServiceRegister (some desc) slots = (ret, slots) := by
  simp only [sysServiceRegister]
  by_cases hbad : desc.moduleId = 0 ∨ desc.interfaceId = 0 ∨ desc.abiVersion = 0 ∨
      desc.ops = 0 ∨ desc.opsSize = 0 ∨ desc.name = none
  · rw [if_pos hbad]
    exact Or.inr ⟨_, by decide, rfl⟩
  · rw [if_neg hbad]
    by_cases hfound : (findService slots desc.moduleId desc.interfaceId).isSome
    · rw [if_pos hfound]
      exact Or.inr ⟨_, by decide, rfl⟩
    · rw [if_neg hfound]
      cases hfree : firstSlot fun x => !(slots x).used with
      | none => exact Or.inr ⟨_, by decide, rfl⟩
      | some x =>
          have hslot : registerSlot desc slots = some x := by
            simp only [not_or] at hbad
            rw [registerSlot, if_neg (by simp only [hbad, hfound, or_self, not_false_eq_true,
              Bool.false_eq_true]), hfree]
          refine Or.inl ⟨x, hslot, by simpa using firstSlot_eq_some hfree, fun y hy hkey => ?_, rfl⟩
          exact hfound ((findService_isSome_iff ..).mpr ⟨y, hy, hkey⟩)

theorem register_effect {desc : Option ServiceDesc}
    (h : enter sizeMax s (.register t desc) = some (ret, s')) :
    Effect s (.register t desc) ret s' := by
  simp only [enter, Option.some.injEq, Prod.mk.injEq] at h
  obtain ⟨rfl, rfl⟩ := h
  cases desc with
  | none => exact Effect.unchanged
  | some desc =>
      rcases sysServiceRegister_spec desc s.slots with
        ⟨x, hslot, hfree, hnew, heq⟩ | ⟨ret, -, heq⟩
      · rw [heq]
        exact Effect.registered hslot hfree hnew
      · rw [heq]
        exact Effect.unchanged

theorem acquire_effect {moduleId interfaceId abiVersion : UInt32} {minimumOpsSize : Nat}
    {outRef : Option ServiceRef}
    (h : enter sizeMax s (.acquire t moduleId interfaceId abiVersion minimumOpsSize outRef) =
      some (ret, s')) :
    Effect s (.acquire t moduleId interfaceId abiVersion minimumOpsSize outRef) ret s' := by
  cases outRef with
  | none =>
      simp only [enter, sysServiceAcquire, Option.bind_none, Option.some.injEq,
        Prod.mk.injEq] at h
      obtain ⟨rfl, rfl⟩ := h
      exact Effect.unchanged
  | some r =>
      simp only [enter, sysServiceAcquire] at h
      by_cases hbad : moduleId = 0 ∨ interfaceId = 0 ∨ abiVersion = 0 ∨ minimumOpsSize = 0
      · simp only [if_pos hbad, Option.bind_some, Option.some.injEq, Prod.mk.injEq] at h
        obtain ⟨rfl, rfl⟩ := h
        exact Effect.unchanged
      · simp only [if_neg hbad] at h
        cases hfound : findService s.slots moduleId interfaceId with
        | none =>
            simp only [hfound, Option.bind_some, Option.some.injEq, Prod.mk.injEq] at h
            obtain ⟨rfl, rfl⟩ := h
            exact Effect.unchanged
        | some x =>
            obtain ⟨hused, hkey⟩ := findService_eq_some hfound
            simp only [hfound] at h
            by_cases hacc : (s.slots x).accepting = false
            · simp only [if_pos hacc, Option.bind_some, Option.some.injEq,
                Prod.mk.injEq] at h
              obtain ⟨rfl, rfl⟩ := h
              exact Effect.unchanged
            · simp only [if_neg hacc] at h
              by_cases habi : (s.slots x).desc.abiVersion ≠ abiVersion ∨
                  (s.slots x).desc.opsSize < minimumOpsSize
              · simp only [if_pos habi, Option.bind_some, Option.some.injEq,
                  Prod.mk.injEq] at h
                obtain ⟨rfl, rfl⟩ := h
                exact Effect.unchanged
              · simp only [if_neg habi] at h
                by_cases hmax : (s.slots x).referenceCount = sizeMax
                · simp only [if_pos hmax, Option.bind_some, Option.some.injEq,
                    Prod.mk.injEq] at h
                  obtain ⟨rfl, rfl⟩ := h
                  exact Effect.unchanged
                · simp only [if_neg hmax, Option.bind_some, Option.some.injEq,
                    Prod.mk.injEq] at h
                  obtain ⟨rfl, rfl⟩ := h
                  rw [not_or, not_not] at habi
                  exact Effect.acquired hused (by simpa using hacc) hkey habi.1
                    (Nat.le_of_not_lt habi.2)

theorem release_effect {holding : Holding}
    (h : enter sizeMax s (.release t holding) = some (ret, s')) :
    Effect s (.release t holding) ret s' := by
  simp only [enter] at h
  split at h
  · rename_i hmem
    simp only [Option.some.injEq, Prod.mk.injEq] at h
    obtain ⟨rfl, rfl⟩ := h
    have heff := Effect.released (t := t) hmem
    convert heff using 2
    simp only [sysServiceRelease, Holding.ref]
    split
    · rfl
    · -- a count of zero is left alone
      rename_i hz
      have hz : (s.slots holding.slot).referenceCount - 1 =
          (s.slots holding.slot).referenceCount := by omega
      rw [hz]
      exact (Function.update_eq_self holding.slot s.slots).symm
  · cases h

theorem unregister_effect {moduleId interfaceId : UInt32}
    (h : enter sizeMax s (.unregister t moduleId interfaceId) = some (ret, s')) :
    Effect s (.unregister t moduleId interfaceId) ret s' := by
  simp only [enter, sysServiceUnregister] at h
  cases hfound : findService s.slots moduleId interfaceId with
  | none =>
      simp only [hfound, Option.some.injEq, Prod.mk.injEq] at h
      obtain ⟨rfl, rfl⟩ := h
      exact Effect.unchanged
  | some x =>
      obtain ⟨hused, hkey⟩ := findService_eq_some hfound
      simp only [hfound, unregisterLoop, Function.update_self] at h
      by_cases hz : (s.slots x).referenceCount ≠ 0
      · simp only [if_pos hz, Registry.park, if_true, Option.some.injEq, Prod.mk.injEq] at h
        obtain ⟨rfl, rfl⟩ := h
        exact Effect.closing hused hkey
      · simp only [if_neg hz, Registry.park, Function.update_idem, reduceCtorEq, if_false,
          Option.some.injEq, Prod.mk.injEq] at h
        obtain ⟨rfl, rfl⟩ := h
        exact Effect.unregistered hused hkey (by simpa using hz)

theorem reset_effect (h : enter sizeMax s (.reset t) = some (ret, s')) :
    Effect s (.reset t) ret s' := by
  simp only [enter, sysServiceRegistryReset] at h
  rcases resetLoop_effect (fun x => { s.slots x with accepting := false }) with
    ⟨heq, -⟩ | ⟨heq, hz⟩
  · simp only [heq, Registry.park, if_true, Option.some.injEq, Prod.mk.injEq] at h
    obtain ⟨rfl, rfl⟩ := h
    exact Effect.resetting
  · simp only [heq, Registry.park, reduceCtorEq, if_false, Option.some.injEq,
      Prod.mk.injEq] at h
    obtain ⟨rfl, rfl⟩ := h
    exact Effect.resetDone (Or.inl rfl) hz

/-- A thread that keeps waiting changes nothing. -/
theorem park_eq_self {w : WaitState} (hw : s.waiting t = w) : s.park t w none = s := by
  subst hw
  simp [Registry.park, Function.update_eq_self]

theorem resume_effect (h : resume s t = some (ret, s')) : Effect s (.wake t) ret s' := by
  unfold resume at h
  cases hw : s.waiting t with
  | idle => simp [hw] at h
  | unregister moduleId interfaceId x =>
      simp only [hw, unregisterLoop] at h
      by_cases hz : (s.slots x).referenceCount ≠ 0
      · simp only [if_pos hz, park_eq_self hw, Option.some.injEq, Prod.mk.injEq] at h
        obtain ⟨rfl, rfl⟩ := h
        exact Effect.unchanged
      · simp only [if_neg hz, Registry.park, reduceCtorEq, if_false, Option.some.injEq,
          Prod.mk.injEq] at h
        obtain ⟨rfl, rfl⟩ := h
        exact Effect.woken hw (by simpa using hz)
  | reset =>
      rcases resetLoop_effect s.slots with ⟨heq, -⟩ | ⟨heq, hz⟩
      · simp only [hw, heq, park_eq_self hw, Option.some.injEq, Prod.mk.injEq] at h
        obtain ⟨rfl, rfl⟩ := h
        exact Effect.unchanged
      · simp only [hw, heq, Registry.park, reduceCtorEq, if_false, Option.some.injEq,
          Prod.mk.injEq] at h
        obtain ⟨rfl, rfl⟩ := h
        exact Effect.resetDone (Or.inr ⟨rfl, hw⟩) hz

/-- Every critical section has one of the effects. -/
theorem criticalSection_effect (h : criticalSection sizeMax s e = some (ret, s')) :
    Effect s e ret s' := by
  have henter : ∀ e, (if s.waiting e.thread = .idle then enter sizeMax s e else none) =
      some (ret, s') → enter sizeMax s e = some (ret, s') := by
    intro e he
    split at he
    · exact he
    · cases he
  cases e with
  | register t desc => exact register_effect (henter _ h)
  | acquire t moduleId interfaceId abiVersion minimumOpsSize outRef =>
      exact acquire_effect (henter _ h)
  | release t holding => exact release_effect (henter _ h)
  | releaseNull t ref =>
      have h := henter _ h
      simp only [enter] at h
      split at h
      · rename_i hnull
        simp only [Option.some.injEq, Prod.mk.injEq] at h
        obtain ⟨rfl, rfl⟩ := h
        cases ref with
        | none => exact Effect.unchanged
        | some r =>
            have hr : r.internal = none := hnull
            simp only [sysServiceRelease, hr]
            exact Effect.unchanged
      · cases h
  | unregister t moduleId interfaceId => exact unregister_effect (henter _ h)
  | reset t => exact reset_effect (henter _ h)
  | wake t => exact resume_effect h

theorem step_effect (h : (registryMachine Tid sizeMax).step s e s') : ∃ ret, Effect s e ret s' := by
  obtain ⟨⟨ret, s₁⟩, hsec, rfl⟩ := Option.map_eq_some_iff.mp h
  exact ⟨ret, criticalSection_effect hsec⟩

theorem step_of_criticalSection (h : criticalSection sizeMax s e = some (ret, s')) :
    (registryMachine Tid sizeMax).step s e s' :=
  Option.map_eq_some_iff.mpr ⟨(ret, s'), h, rfl⟩

end Effects

end Step

end Service
end AppCore
