/-
  AppCore.Service.Sections

  The critical sections of the registry with the codes they return, for the callers of the
  registry: what a thread that is not waiting does, and what a thread does that wakes up.
-/

import AppCore.Service.References

namespace AppCore
namespace Service

variable {Tid : Type*} [DecidableEq Tid] {sizeMax : Nat} {s s' : Registry Tid} {t : Tid}
  {ret : Option SysErr} {moduleId interfaceId abiVersion : UInt32} {x : Fin serviceMaxEntries}

theorem enter_of_criticalSection {e : Event Tid} (hwake : ∀ t, e ≠ .wake t)
    (h : criticalSection sizeMax s e = some (ret, s')) :
    s.waiting e.thread = .idle ∧ enter sizeMax s e = some (ret, s') := by
  cases e with
  | wake t => exact absurd rfl (hwake t)
  | _ => exact Option.ite_none_right_eq_some.mp h

theorem criticalSection_of_idle {e : Event Tid} (hwake : ∀ t, e ≠ .wake t)
    (h : s.waiting e.thread = .idle) : criticalSection sizeMax s e = enter sizeMax s e := by
  cases e with
  | wake t => exact absurd rfl (hwake t)
  | _ => exact if_pos h

theorem register_section {desc : ServiceDesc}
    (h : criticalSection sizeMax s (.register t (some desc)) = some (ret, s')) :
    (∃ x, (s.slots x).used = false ∧
      (∀ y, (s.slots y).used = true → (s.slots y).desc.key ≠ desc.key) ∧ ret = some .ok ∧
      s' = { s with slots := Function.update s.slots x ⟨true, true, 0, desc⟩ }) ∨
    (ret ≠ some .ok ∧ s' = s) := by
  obtain ⟨-, henter⟩ := enter_of_criticalSection (fun _ hwake => by cases hwake) h
  simp only [enter, Option.some.injEq, Prod.mk.injEq] at henter
  obtain ⟨rfl, rfl⟩ := henter
  rcases sysServiceRegister_spec desc s.slots with ⟨x, -, hfree, hnew, heq⟩ | ⟨ret, hne, heq⟩
  · rw [heq]
    exact Or.inl ⟨x, hfree, hnew, rfl, rfl⟩
  · rw [heq]
    exact Or.inr ⟨fun hok => hne (Option.some.inj hok), rfl⟩

theorem unregister_section
    (h : criticalSection sizeMax s (.unregister t moduleId interfaceId) = some (ret, s')) :
    (∃ x, (s.slots x).used = true ∧ (s.slots x).desc.key = (moduleId, interfaceId) ∧
      (((s.slots x).referenceCount = 0 ∧ ret = some .ok ∧ s' = { s with
          slots := Function.update s.slots x {}
          waiting := Function.update s.waiting t .idle }) ∨
        ((s.slots x).referenceCount ≠ 0 ∧ ret = none ∧ s' = { s with
          slots := Function.update s.slots x { s.slots x with accepting := false }
          waiting := Function.update s.waiting t (.unregister moduleId interfaceId x) }))) ∨
    ((∀ y, (s.slots y).used = true → (s.slots y).desc.key ≠ (moduleId, interfaceId)) ∧
      ret = some .notFound ∧ s' = s) := by
  obtain ⟨-, henter⟩ := enter_of_criticalSection (fun _ hwake => by cases hwake) h
  simp only [enter, sysServiceUnregister] at henter
  cases hfound : findService s.slots moduleId interfaceId with
  | none =>
      simp only [hfound, Option.some.injEq, Prod.mk.injEq] at henter
      obtain ⟨rfl, rfl⟩ := henter
      refine Or.inr ⟨fun y hy hkey => ?_, rfl, rfl⟩
      have hsome := (findService_isSome_iff s.slots moduleId interfaceId).mpr ⟨y, hy, hkey⟩
      rw [hfound] at hsome
      cases hsome
  | some x =>
      obtain ⟨hused, hkey⟩ := findService_eq_some hfound
      refine Or.inl ⟨x, hused, hkey, ?_⟩
      simp only [hfound, unregisterLoop, Function.update_self] at henter
      by_cases hz : (s.slots x).referenceCount = 0
      · simp only [hz, ne_eq, not_true_eq_false, if_false, Registry.park, Function.update_idem,
          reduceCtorEq, Option.some.injEq, Prod.mk.injEq] at henter
        obtain ⟨rfl, rfl⟩ := henter
        exact Or.inl ⟨hz, rfl, rfl⟩
      · simp only [ne_eq, if_pos hz, Registry.park, if_true, Option.some.injEq,
          Prod.mk.injEq] at henter
        obtain ⟨rfl, rfl⟩ := henter
        exact Or.inr ⟨hz, rfl, rfl⟩

theorem wake_unregister_section (hwait : s.waiting t = .unregister moduleId interfaceId x)
    (h : criticalSection sizeMax s (.wake t) = some (ret, s')) :
    ((s.slots x).referenceCount = 0 ∧ ret = some .ok ∧ s' = { s with
      slots := Function.update s.slots x {}
      waiting := Function.update s.waiting t .idle }) ∨
    ((s.slots x).referenceCount ≠ 0 ∧ ret = none ∧ s' = s) := by
  have hresume : resume s t = some (ret, s') := h
  simp only [resume, hwait, unregisterLoop] at hresume
  by_cases hz : (s.slots x).referenceCount = 0
  · simp only [hz, ne_eq, not_true_eq_false, if_false, Registry.park, reduceCtorEq,
      Option.some.injEq, Prod.mk.injEq] at hresume
    obtain ⟨rfl, rfl⟩ := hresume
    exact Or.inl ⟨hz, rfl, rfl⟩
  · simp only [ne_eq, if_pos hz, park_eq_self hwait, Option.some.injEq, Prod.mk.injEq] at hresume
    obtain ⟨rfl, rfl⟩ := hresume
    exact Or.inr ⟨hz, rfl, rfl⟩

theorem reset_section (h : criticalSection sizeMax s (.reset t) = some (ret, s')) :
    ((∃ y, (s.slots y).referenceCount ≠ 0) ∧ s' = { s with
      slots := closedSlots s.slots
      waiting := Function.update s.waiting t .reset }) ∨
    ((∀ y, (s.slots y).referenceCount = 0) ∧ s' = { s with
      slots := fun _ => {}
      waiting := Function.update s.waiting t .idle }) := by
  obtain ⟨-, henter⟩ := enter_of_criticalSection (fun _ hwake => by cases hwake) h
  simp only [enter, sysServiceRegistryReset] at henter
  rcases resetLoop_effect fun y => { s.slots y with accepting := false } with
    ⟨heq, hpos⟩ | ⟨heq, hz⟩
  · simp only [heq, Registry.park, if_true, Option.some.injEq, Prod.mk.injEq] at henter
    obtain ⟨rfl, rfl⟩ := henter
    exact Or.inl ⟨hpos, rfl⟩
  · simp only [heq, Registry.park, reduceCtorEq, if_false, Option.some.injEq,
      Prod.mk.injEq] at henter
    obtain ⟨rfl, rfl⟩ := henter
    exact Or.inr ⟨hz, rfl⟩

theorem wake_reset_section (hwait : s.waiting t = .reset)
    (h : criticalSection sizeMax s (.wake t) = some (ret, s')) :
    s' = s ∨ ((∀ y, (s.slots y).referenceCount = 0) ∧ s' = { s with
      slots := fun _ => {}
      waiting := Function.update s.waiting t .idle }) := by
  have hresume : resume s t = some (ret, s') := h
  rcases resetLoop_effect s.slots with ⟨heq, -⟩ | ⟨heq, hz⟩
  · simp only [resume, hwait, heq, park_eq_self hwait, Option.some.injEq,
      Prod.mk.injEq] at hresume
    obtain ⟨rfl, rfl⟩ := hresume
    exact Or.inl rfl
  · simp only [resume, hwait, heq, Registry.park, reduceCtorEq, if_false, Option.some.injEq,
      Prod.mk.injEq] at hresume
    obtain ⟨rfl, rfl⟩ := hresume
    exact Or.inr ⟨hz, rfl⟩

/-- A thread that does not wait cannot wake up. -/
theorem wake_idle_section (hwait : s.waiting t = .idle) :
    criticalSection sizeMax s (.wake t) = none := by
  show resume s t = none
  simp only [resume, hwait]

theorem acquire_section {minimumOpsSize : Nat} {r : ServiceRef}
    (h : criticalSection sizeMax s
      (.acquire t moduleId interfaceId abiVersion minimumOpsSize (some r)) = some (ret, s')) :
    (∃ x, (s.slots x).used = true ∧ (s.slots x).accepting = true ∧
      (s.slots x).desc.key = (moduleId, interfaceId) ∧ ret = some .ok ∧ s' = { s with
        slots := Function.update s.slots x
          { s.slots x with referenceCount := (s.slots x).referenceCount + 1 }
        outstanding := ⟨s.serial, x, (s.slots x).desc⟩ :: s.outstanding
        serial := s.serial + 1 }) ∨
    ((∃ err, ret = some err ∧ err ≠ .ok) ∧ s' = s) := by
  obtain ⟨-, henter⟩ := enter_of_criticalSection (fun _ hwake => by cases hwake) h
  rcases sysServiceAcquire_spec sizeMax moduleId interfaceId abiVersion minimumOpsSize r
      s.slots with
    ⟨x, hused, hacc, hkey, -, -, heq⟩ | ⟨err, hne, heq⟩
  · simp only [enter, heq, Option.bind_some, Option.some.injEq, Prod.mk.injEq] at henter
    obtain ⟨rfl, rfl⟩ := henter
    exact Or.inl ⟨x, hused, hacc, hkey, rfl, rfl⟩
  · simp only [enter, heq, Option.bind_some, Option.some.injEq, Prod.mk.injEq] at henter
    obtain ⟨rfl, rfl⟩ := henter
    exact Or.inr ⟨⟨err, rfl, hne⟩, rfl⟩

theorem sysServiceRelease_slots (ref : Holding) (slots : Slots) :
    (sysServiceRelease (some ref.ref) slots).1 = Function.update slots ref.slot
      { slots ref.slot with referenceCount := (slots ref.slot).referenceCount - 1 } := by
  simp only [sysServiceRelease, Holding.ref]
  split
  · rfl
  · -- a count of zero is left alone
    rename_i hz
    have hz : (slots ref.slot).referenceCount - 1 = (slots ref.slot).referenceCount := by omega
    rw [hz]
    exact (Function.update_eq_self ref.slot slots).symm

theorem release_section {ref : Holding}
    (h : criticalSection sizeMax s (.release t ref) = some (ret, s')) :
    ref ∈ s.outstanding ∧ s' = { s with
      slots := Function.update s.slots ref.slot
        { s.slots ref.slot with referenceCount := (s.slots ref.slot).referenceCount - 1 }
      outstanding := s.outstanding.erase ref } := by
  obtain ⟨-, henter⟩ := enter_of_criticalSection (fun _ hwake => by cases hwake) h
  obtain ⟨hmem, hreleased⟩ := Option.ite_none_right_eq_some.mp henter
  rw [sysServiceRelease_slots] at hreleased
  obtain ⟨-, rfl⟩ := Prod.mk.inj (Option.some.inj hreleased)
  exact ⟨hmem, rfl⟩

end Service
end AppCore
