/-
  AppCore.Service.References

  References into the registry are counted: in every reachable state the count of
  a slot is the number of references to it that are held, so a slot is never
  cleared, and its descriptor never replaced, under a caller that holds one.
-/

import AppCore.Service.Model

namespace AppCore
namespace Service

section References

variable {Tid : Type*}

/-- The references to a slot that are held. -/
def heldCount (outstanding : List Holding) (x : Fin serviceMaxEntries) : Nat :=
  outstanding.countP fun h => h.slot = x

/-- What holds of the registry between any two critical sections. -/
structure ReferenceSafe (s : Registry Tid) : Prop where
  distinct : ∀ x y, (s.slots x).used = true → (s.slots y).used = true →
    (s.slots x).desc.key = (s.slots y).desc.key → x = y
  unused : ∀ x, (s.slots x).used = false →
    (s.slots x).referenceCount = 0 ∧ (s.slots x).accepting = false
  counted : ∀ x, (s.slots x).referenceCount = heldCount s.outstanding x
  described : ∀ h ∈ s.outstanding,
    (s.slots h.slot).used = true ∧ (s.slots h.slot).desc = h.desc

/-! ## Counting held references -/

theorem heldCount_cons (h : Holding) (l : List Holding) (x : Fin serviceMaxEntries) :
    heldCount (h :: l) x = heldCount l x + if h.slot = x then 1 else 0 := by
  rw [heldCount, heldCount, List.countP_cons]
  by_cases hx : h.slot = x <;> simp [hx]

theorem heldCount_erase {h : Holding} {l : List Holding} (hm : h ∈ l)
    (x : Fin serviceMaxEntries) :
    heldCount (l.erase h) x + (if h.slot = x then 1 else 0) = heldCount l x := by
  have hperm := List.perm_cons_erase hm
  have hcount : heldCount l x = heldCount (h :: l.erase h) x := hperm.countP_eq _
  rw [hcount, heldCount_cons]

theorem not_held_of_heldCount_eq_zero {l : List Holding} {x : Fin serviceMaxEntries}
    (hz : heldCount l x = 0) : ∀ h ∈ l, h.slot ≠ x := by
  intro h hm
  have := List.countP_eq_zero.mp hz h hm
  simpa using this

/-! ## The invariant -/

theorem referenceSafe_zero : ReferenceSafe (Registry.zero : Registry Tid) where
  distinct x y hx := by cases hx
  unused x _ := ⟨rfl, rfl⟩
  counted x := rfl
  described h hm := by cases hm

variable {s s' : Registry Tid} {x : Fin serviceMaxEntries}

/-- A new registration goes to a slot nobody refers to. -/
theorem ReferenceSafe.registered (hs : ReferenceSafe s) {desc : ServiceDesc}
    (hfree : (s.slots x).used = false)
    (hnew : ∀ y, (s.slots y).used = true → (s.slots y).desc.key ≠ desc.key) :
    ReferenceSafe { s with slots := Function.update s.slots x ⟨true, true, 0, desc⟩ } where
  distinct y z hy hz hkey := by
    dsimp only at hy hz hkey
    by_cases hyx : y = x
    · by_cases hzx : z = x
      · rw [hyx, hzx]
      · subst hyx
        rw [Function.update_of_ne hzx] at hz hkey
        rw [Function.update_self] at hkey
        exact absurd hkey.symm (hnew z hz)
    · rw [Function.update_of_ne hyx] at hy hkey
      by_cases hzx : z = x
      · subst hzx
        rw [Function.update_self] at hkey
        exact absurd hkey (hnew y hy)
      · rw [Function.update_of_ne hzx] at hz hkey
        exact hs.distinct y z hy hz hkey
  unused y hy := by
    dsimp only at hy ⊢
    by_cases hyx : y = x
    · subst hyx
      rw [Function.update_self] at hy
      cases hy
    · rw [Function.update_of_ne hyx] at hy ⊢
      exact hs.unused y hy
  counted y := by
    dsimp only
    by_cases hyx : y = x
    · subst hyx
      rw [Function.update_self, ← hs.counted y]
      exact (hs.unused y hfree).1.symm
    · rw [Function.update_of_ne hyx]
      exact hs.counted y
  described h hm := by
    obtain ⟨hused, hdesc⟩ := hs.described h hm
    have hne : h.slot ≠ x := by
      intro hx
      rw [hx, hfree] at hused
      cases hused
    dsimp only
    rw [Function.update_of_ne hne]
    exact ⟨hused, hdesc⟩

/-- Changes to the count and the accepting flag of used slots, as long as the count
    stays that of the held references. -/
theorem ReferenceSafe.recount (hs : ReferenceSafe s) {slots : Slots} {outstanding : List Holding}
    {waiting : Tid → WaitState} {serial : Nat}
    (hused : ∀ y, (slots y).used = (s.slots y).used)
    (hdesc : ∀ y, (slots y).desc = (s.slots y).desc)
    (hunused : ∀ y, (slots y).used = false →
      (slots y).referenceCount = 0 ∧ (slots y).accepting = false)
    (hcount : ∀ y, (slots y).referenceCount = heldCount outstanding y)
    (hheld : ∀ h ∈ outstanding, (s.slots h.slot).used = true ∧ (s.slots h.slot).desc = h.desc) :
    ReferenceSafe (⟨slots, waiting, outstanding, serial⟩ : Registry Tid) where
  distinct y z hy hz hkey := by
    dsimp only at hy hz hkey
    rw [hused] at hy hz
    rw [hdesc, hdesc] at hkey
    exact hs.distinct y z hy hz hkey
  unused := hunused
  counted := hcount
  described h hm := by
    dsimp only
    rw [hused, hdesc]
    exact hheld h hm

theorem ReferenceSafe.acquired (hs : ReferenceSafe s) (hx : (s.slots x).used = true) :
    ReferenceSafe { s with
      slots := Function.update s.slots x
        { s.slots x with referenceCount := (s.slots x).referenceCount + 1 }
      outstanding := ⟨s.serial, x, (s.slots x).desc⟩ :: s.outstanding
      serial := s.serial + 1 } := by
  refine hs.recount (fun y => ?_) (fun y => ?_) (fun y hy => ?_) (fun y => ?_) (fun h hm => ?_)
  · by_cases hyx : y = x
    · subst hyx; rw [Function.update_self]
    · rw [Function.update_of_ne hyx]
  · by_cases hyx : y = x
    · subst hyx; rw [Function.update_self]
    · rw [Function.update_of_ne hyx]
  · by_cases hyx : y = x
    · subst hyx
      rw [Function.update_self] at hy
      rw [hx] at hy
      cases hy
    · rw [Function.update_of_ne hyx] at hy ⊢
      exact hs.unused y hy
  · rw [heldCount_cons]
    by_cases hyx : y = x
    · subst hyx
      rw [Function.update_self, if_pos rfl, ← hs.counted]
    · rw [Function.update_of_ne hyx, if_neg (Ne.symm hyx), Nat.add_zero]
      exact hs.counted y
  · rcases List.mem_cons.mp hm with rfl | hm
    · exact ⟨hx, rfl⟩
    · exact hs.described h hm

theorem ReferenceSafe.released (hs : ReferenceSafe s) {h : Holding} (hm : h ∈ s.outstanding) :
    ReferenceSafe { s with
      slots := Function.update s.slots h.slot
        { s.slots h.slot with referenceCount := (s.slots h.slot).referenceCount - 1 }
      outstanding := s.outstanding.erase h } := by
  have hcount := heldCount_erase hm
  refine hs.recount (fun y => ?_) (fun y => ?_) (fun y hy => ?_) (fun y => ?_) (fun g hg => ?_)
  · by_cases hyx : y = h.slot
    · subst hyx; rw [Function.update_self]
    · rw [Function.update_of_ne hyx]
  · by_cases hyx : y = h.slot
    · subst hyx; rw [Function.update_self]
    · rw [Function.update_of_ne hyx]
  · by_cases hyx : y = h.slot
    · subst hyx
      rw [Function.update_self, (hs.described h hm).1] at hy
      cases hy
    · rw [Function.update_of_ne hyx] at hy ⊢
      exact hs.unused y hy
  · have hc := hcount y
    by_cases hyx : y = h.slot
    · subst hyx
      rw [if_pos rfl] at hc
      rw [Function.update_self]
      show (s.slots h.slot).referenceCount - 1 = heldCount (s.outstanding.erase h) h.slot
      rw [hs.counted, ← hc, Nat.add_sub_cancel]
    · rw [if_neg (Ne.symm hyx), Nat.add_zero] at hc
      rw [Function.update_of_ne hyx, hc]
      exact hs.counted y
  · exact hs.described g (List.mem_of_mem_erase hg)

theorem ReferenceSafe.closing (hs : ReferenceSafe s) (hx : (s.slots x).used = true)
    (waiting : Tid → WaitState) :
    ReferenceSafe { s with
      slots := Function.update s.slots x { s.slots x with accepting := false }
      waiting := waiting } := by
  refine hs.recount (fun y => ?_) (fun y => ?_) (fun y hy => ?_) (fun y => ?_) hs.described
  · by_cases hyx : y = x
    · subst hyx; rw [Function.update_self]
    · rw [Function.update_of_ne hyx]
  · by_cases hyx : y = x
    · subst hyx; rw [Function.update_self]
    · rw [Function.update_of_ne hyx]
  · by_cases hyx : y = x
    · subst hyx
      rw [Function.update_self, hx] at hy
      cases hy
    · rw [Function.update_of_ne hyx] at hy ⊢
      exact hs.unused y hy
  · by_cases hyx : y = x
    · subst hyx
      rw [Function.update_self]
      exact hs.counted y
    · rw [Function.update_of_ne hyx]
      exact hs.counted y

/-- Slots are cleared when no reference to them is held. -/
theorem ReferenceSafe.cleared (hs : ReferenceSafe s) {slots : Slots}
    (hslots : ∀ y, slots y = s.slots y ∨ (slots y = {} ∧ (s.slots y).referenceCount = 0))
    (waiting : Tid → WaitState) : ReferenceSafe { s with slots := slots, waiting := waiting } where
  distinct y z hy hz hkey := by
    dsimp only at hy hz hkey
    rcases hslots y with hy' | ⟨hy', -⟩
    · rcases hslots z with hz' | ⟨hz', -⟩
      · rw [hy'] at hy hkey
        rw [hz'] at hz hkey
        exact hs.distinct y z hy hz hkey
      · rw [hz'] at hz; cases hz
    · rw [hy'] at hy; cases hy
  unused y hy := by
    dsimp only at hy ⊢
    rcases hslots y with hy' | ⟨hy', -⟩
    · rw [hy'] at hy ⊢
      exact hs.unused y hy
    · rw [hy']
      exact ⟨rfl, rfl⟩
  counted y := by
    dsimp only
    rcases hslots y with hy' | ⟨hy', hz⟩
    · rw [hy']
      exact hs.counted y
    · rw [hy', ← hs.counted y, hz]
  described h hm := by
    obtain ⟨hused, hdesc⟩ := hs.described h hm
    have hheld : heldCount s.outstanding h.slot ≠ 0 := fun hz =>
      not_held_of_heldCount_eq_zero hz h hm rfl
    dsimp only
    rcases hslots h.slot with hy | ⟨-, hz⟩
    · rw [hy]
      exact ⟨hused, hdesc⟩
    · rw [hs.counted] at hz
      exact absurd hz hheld

/-- Clearing one slot, as a case of `ReferenceSafe.cleared`. -/
theorem cleared_one (slots : Slots) (hz : (slots x).referenceCount = 0) :
    ∀ y, Function.update slots x {} y = slots y ∨
      (Function.update slots x {} y = {} ∧ (slots y).referenceCount = 0) := by
  intro y
  by_cases hyx : y = x
  · subst hyx
    rw [Function.update_self]
    exact Or.inr ⟨rfl, hz⟩
  · rw [Function.update_of_ne hyx]
    exact Or.inl rfl

/-! ## Runs -/

variable [DecidableEq Tid] {sizeMax : Nat}

theorem ReferenceSafe.effect (hs : ReferenceSafe s) {e : Event Tid} {ret : Option SysErr}
    (h : Effect s e ret s') : ReferenceSafe s' := by
  cases h with
  | unchanged => exact hs
  | registered _ hfree hnew => exact hs.registered hfree hnew
  | acquired hused => exact hs.acquired hused
  | released hm => exact hs.released hm
  | closing hused => exact hs.closing hused _
  | unregistered _ _ hz => exact hs.cleared (cleared_one s.slots hz) _
  | woken _ hz => exact hs.cleared (cleared_one s.slots hz) _
  | resetting =>
      refine hs.recount (fun y => rfl) (fun y => rfl) (fun y hy => ?_) hs.counted hs.described
      exact ⟨(hs.unused y hy).1, rfl⟩
  | resetDone _ hz => exact hs.cleared (fun y => Or.inr ⟨rfl, hz y⟩) _

theorem referenceSafe_of_reachable (h : (registryMachine Tid sizeMax).Reachable s) :
    ReferenceSafe s := by
  refine h.invariant (fun s hs => ?_) (fun u e v hu hstep => ?_)
  · subst hs
    exact referenceSafe_zero
  · obtain ⟨ret, heff⟩ := step_effect hstep
    exact hu.effect heff

/-- A reference stays held until it is released. -/
theorem held_of_effect {e : Event Tid} {ret : Option SysErr} {h : Holding}
    (heff : Effect s e ret s') (hm : h ∈ s.outstanding) (hrel : ∀ t, e ≠ .release t h) :
    h ∈ s'.outstanding := by
  cases heff with
  | acquired => exact List.mem_cons_of_mem _ hm
  | @released t g _ =>
      have hne : h ≠ g := fun hg => hrel t (hg ▸ rfl)
      exact (List.mem_erase_of_ne hne).mpr hm
  | _ => exact hm

theorem held_of_run {es : List (Event Tid)} {h : Holding}
    (hrun : (registryMachine Tid sizeMax).Run s es s') (hm : h ∈ s.outstanding)
    (hrel : ∀ t, Event.release t h ∉ es) : h ∈ s'.outstanding := by
  induction hrun with
  | nil => exact hm
  | @snoc es u e v _ hstep ih =>
      have hu := ih fun t ht => hrel t (List.mem_append_left _ ht)
      obtain ⟨ret, heff⟩ := step_effect hstep
      exact held_of_effect heff hu fun t ht => hrel t (by rw [← ht]; simp)

/-- What `sys_service_acquire` demands and what it leaves when it refuses. -/
theorem sysServiceAcquire_spec (sizeMax : Nat) (moduleId interfaceId abiVersion : UInt32)
    (minimumOpsSize : Nat) (r : ServiceRef) (slots : Slots) :
    (∃ x, (slots x).used = true ∧ (slots x).accepting = true ∧
        (slots x).desc.key = (moduleId, interfaceId) ∧
        (slots x).desc.abiVersion = abiVersion ∧ minimumOpsSize ≤ (slots x).desc.opsSize ∧
        sysServiceAcquire sizeMax moduleId interfaceId abiVersion minimumOpsSize (some r) slots =
          (.ok, Function.update slots x
              { slots x with referenceCount := (slots x).referenceCount + 1 },
            some { ops := (slots x).desc.ops, internal := some x })) ∨
      (∃ ret, ret ≠ .ok ∧
        sysServiceAcquire sizeMax moduleId interfaceId abiVersion minimumOpsSize (some r) slots =
          (ret, slots, some { ops := 0, internal := none })) := by
  simp only [sysServiceAcquire]
  by_cases hbad : moduleId = 0 ∨ interfaceId = 0 ∨ abiVersion = 0 ∨ minimumOpsSize = 0
  · rw [if_pos hbad]
    exact Or.inr ⟨_, by decide, rfl⟩
  · rw [if_neg hbad]
    cases hfound : findService slots moduleId interfaceId with
    | none => exact Or.inr ⟨_, by decide, rfl⟩
    | some x =>
        obtain ⟨hused, hkey⟩ := findService_eq_some hfound
        dsimp only
        by_cases hacc : (slots x).accepting = false
        · rw [if_pos hacc]
          exact Or.inr ⟨_, by decide, rfl⟩
        · rw [if_neg hacc]
          by_cases habi : (slots x).desc.abiVersion ≠ abiVersion ∨
              (slots x).desc.opsSize < minimumOpsSize
          · rw [if_pos habi]
            exact Or.inr ⟨_, by decide, rfl⟩
          · rw [if_neg habi]
            by_cases hmax : (slots x).referenceCount = sizeMax
            · rw [if_pos hmax]
              exact Or.inr ⟨_, by decide, rfl⟩
            · rw [if_neg hmax]
              rw [not_or, not_not] at habi
              exact Or.inl ⟨x, hused, by simpa using hacc, hkey, habi.1,
                Nat.le_of_not_lt habi.2, rfl⟩

/-- A used slot is cleared only by the critical section in which an unregister or a
    reset returns. -/
theorem cleared_of_effect (hs : ReferenceSafe s) {e : Event Tid} {ret : Option SysErr}
    (heff : Effect s e ret s') (hx : (s.slots x).used = true) (hx' : (s'.slots x).used = false) :
    ret = some .ok ∧
      ((∃ t m i, e = .unregister t m i) ∨ (∃ t, e = .reset t) ∨ ∃ t, e = .wake t) ∧
      s'.outstanding = s.outstanding ∧ ∀ h ∈ s.outstanding, h.slot ≠ x := by
  have hother : ∀ {y : Fin serviceMaxEntries} {slot : ServiceSlot},
      (Function.update s.slots y slot x).used = false → (y = x → slot.used = true) → False := by
    intro y slot hu hslot
    by_cases hyx : x = y
    · subst hyx
      rw [Function.update_self, hslot rfl] at hu
      cases hu
    · rw [Function.update_of_ne hyx, hx] at hu
      cases hu
  have hzero : ∀ {y : Fin serviceMaxEntries}, (s.slots y).referenceCount = 0 →
      (Function.update s.slots y {} x).used = false → ∀ h ∈ s.outstanding, h.slot ≠ x := by
    intro y hz hu
    have hyx : y = x := by
      by_contra hne
      rw [Function.update_of_ne (Ne.symm hne), hx] at hu
      cases hu
    subst hyx
    rw [hs.counted] at hz
    exact not_held_of_heldCount_eq_zero hz
  cases heff with
  | unchanged => rw [hx] at hx'; cases hx'
  | registered => exact (hother hx' fun _ => rfl).elim
  | acquired hused => exact (hother hx' fun _ => hused).elim
  | released hm => exact (hother hx' fun _ => (hs.described _ hm).1).elim
  | closing hused => exact (hother hx' fun _ => hused).elim
  | unregistered _ _ hz => exact ⟨rfl, Or.inl ⟨_, _, _, rfl⟩, rfl, hzero hz hx'⟩
  | woken _ hz => exact ⟨rfl, Or.inr (Or.inr ⟨_, rfl⟩), rfl, hzero hz hx'⟩
  | resetting => exact absurd hx (by rw [show (s.slots x).used = false from hx']; decide)
  | @resetDone e t he hz =>
      refine ⟨rfl, ?_, rfl, not_held_of_heldCount_eq_zero ((hs.counted x).symm.trans (hz x))⟩
      rcases he with rfl | ⟨rfl, -⟩
      · exact Or.inr (Or.inl ⟨t, rfl⟩)
      · exact Or.inr (Or.inr ⟨t, rfl⟩)

end References

/-- Reference safety of the registry in every reachable state of every interleaving. -/
theorem registry_reference_safety (Tid : Type*) [DecidableEq Tid] (sizeMax : Nat)
    {s : Registry Tid} (hs : (registryMachine Tid sizeMax).Reachable s) :
    ReferenceSafe s ∧
    -- an acquire
    (∀ m i abi size r, let res := sysServiceAcquire sizeMax m i abi size (some r) s.slots
      (res.1 = .ok → ∃ x, (s.slots x).used = true ∧ (s.slots x).accepting = true ∧
        (s.slots x).desc.key = (m, i) ∧ (s.slots x).desc.abiVersion = abi ∧
        size ≤ (s.slots x).desc.opsSize ∧
        res.2.2 = some { ops := (s.slots x).desc.ops, internal := some x }) ∧
      (res.1 ≠ .ok → res.2.1 = s.slots ∧ res.2.2 = some { ops := 0, internal := none })) ∧
    -- from the acquire to the release
    (∀ t m i abi size r s₁,
      criticalSection sizeMax s (.acquire t m i abi size (some r)) = some (some .ok, s₁) →
      ∃ h ∈ s₁.outstanding, h.serial = s.serial ∧ h.desc = (s.slots h.slot).desc ∧
        ∀ es s₂, (registryMachine Tid sizeMax).Run s₁ es s₂ →
          (∀ t', Event.release t' h ∉ es) →
          (s₂.slots h.slot).used = true ∧ (s₂.slots h.slot).desc = h.desc) ∧
    -- the clearing of a slot
    (∀ e ret s', criticalSection sizeMax s e = some (ret, s') →
      ∀ x, (s.slots x).used = true → (s'.slots x).used = false →
        ret = some .ok ∧
        ((∃ t m i, e = .unregister t m i) ∨ (∃ t, e = .reset t) ∨ ∃ t, e = .wake t) ∧
        s'.outstanding = s.outstanding ∧ ∀ h ∈ s.outstanding, h.slot ≠ x) := by
  have hsafe := referenceSafe_of_reachable hs
  refine ⟨hsafe, ?_, ?_, ?_⟩
  · intro m i abi size r
    rcases sysServiceAcquire_spec sizeMax m i abi size r s.slots with
      ⟨x, hused, hacc, hkey, habi, hsize, heq⟩ | ⟨ret, hne, heq⟩
    · rw [heq]
      exact ⟨fun _ => ⟨x, hused, hacc, hkey, habi, hsize, rfl⟩, fun h => absurd rfl h⟩
    · rw [heq]
      exact ⟨fun h => absurd h hne, fun _ => ⟨rfl, rfl⟩⟩
  · intro t m i abi size r s₁ hsec
    have hreach : (registryMachine Tid sizeMax).Reachable s₁ :=
      hs.step (step_of_criticalSection hsec)
    have hnew : ∃ x, (⟨s.serial, x, (s.slots x).desc⟩ : Holding) ∈ s₁.outstanding := by
      simp only [criticalSection, enter] at hsec
      split at hsec
      · rcases sysServiceAcquire_spec sizeMax m i abi size r s.slots with
          ⟨x, -, -, -, -, -, heq⟩ | ⟨ret, hne, heq⟩
        · simp only [heq, Option.bind_some, Option.some.injEq, Prod.mk.injEq] at hsec
          obtain ⟨-, rfl⟩ := hsec
          exact ⟨x, List.mem_cons_self ..⟩
        · simp only [heq, Option.bind_some, Option.some.injEq, Prod.mk.injEq] at hsec
          exact absurd hsec.1 hne
      · cases hsec
    obtain ⟨x, hx⟩ := hnew
    refine ⟨_, hx, rfl, rfl, fun es s₂ hrun hrel => ?_⟩
    have hsafe₂ := referenceSafe_of_reachable (hreach.run hrun)
    exact hsafe₂.described _ (held_of_run hrun hx hrel)
  · intro e ret s' hsec x hx hx'
    exact cleared_of_effect hsafe (criticalSection_effect hsec) hx hx'

/-- A registry with one service and one reference to it. -/
theorem registry_reference_safety_acquired :
    ∃ s : Registry Nat, s.outstanding.length = 1 ∧ ReferenceSafe s := by
  have hrun : (Machine.exec (next 1000) (Registry.zero : Registry Nat)
      [.register 0 (some (.sample 1 1)), .acquire 0 1 1 1 8 (some {})]).map
        (·.outstanding.length) = some 1 := by
    decide
  obtain ⟨s, hs, hlen⟩ := Option.map_eq_some_iff.mp hrun
  exact ⟨s, hlen, (registry_reference_safety Nat 1000 ⟨_, _, rfl, Machine.Run.of_exec hs⟩).1⟩

end Service
end AppCore
