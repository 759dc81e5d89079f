/-
  AppCore.Service.Ownership

  Who may remove a registration.  `sys_service_unregister` keeps its slot pointer
  across the wait; when the slot is cleared by another call and registered again in
  the meantime, the pointer belongs to somebody else's service.  As long as no
  registration goes to a slot a sleeping unregister of another key points at, a
  registration is only removed by its owner; the first registration that does can
  be lost at the very next step.
-/

import AppCore.Service.References

namespace AppCore
namespace Service

section Ownership

variable {Tid : Type*} {s s' : Registry Tid} {x : Fin serviceMaxEntries} {desc : ServiceDesc}

/-- The slot holds the registration. -/
def Registered (s : Registry Tid) (x : Fin serviceMaxEntries) (desc : ServiceDesc) : Prop :=
  (s.slots x).used = true ∧ (s.slots x).desc = desc

/-- The critical section belongs to an unregister call for the key of the slot, or to a
    reset. -/
def OwnerCall (s : Registry Tid) (x : Fin serviceMaxEntries) : Event Tid → Prop
  | .unregister _ moduleId interfaceId => (s.slots x).desc.key = (moduleId, interfaceId)
  | .reset _ => True
  | .wake t =>
    match s.waiting t with
    | .idle => False
    | .unregister moduleId interfaceId _ => (s.slots x).desc.key = (moduleId, interfaceId)
    | .reset => True
  | _ => False

/-- A registration does not go to a slot that a sleeping unregister of another key
    points at. -/
def RegisterSafe (s : Registry Tid) : Event Tid → Prop
  | .register _ (some desc) => ∀ x, registerSlot desc s.slots = some x →
      ∀ t moduleId interfaceId, s.waiting t = .unregister moduleId interfaceId x →
        desc.key = (moduleId, interfaceId)
  | _ => True

/-- Whoever sleeps in an unregister owns the service in its slot, if there is one. -/
def Owned (s : Registry Tid) : Prop :=
  ∀ t moduleId interfaceId x, s.waiting t = .unregister moduleId interfaceId x →
    (s.slots x).used = true → (s.slots x).desc.key = (moduleId, interfaceId)

/-- Slots that are the old ones, or unused, keep the ownership of old waiters. -/
theorem Owned.of_slots (hs : Owned s) {slots : Slots} {waiting : Tid → WaitState}
    {outstanding : List Holding} {serial : Nat}
    (hslots : ∀ y, (slots y).used = true →
      (s.slots y).used = true ∧ (slots y).desc = (s.slots y).desc)
    (hwait : ∀ t m i y, waiting t = .unregister m i y → s.waiting t = .unregister m i y ∨
      (s.slots y).desc.key = (m, i)) :
    Owned (⟨slots, waiting, outstanding, serial⟩ : Registry Tid) := by
  intro t m i y hw hused
  obtain ⟨hold, hdesc⟩ := hslots y hused
  show (slots y).desc.key = (m, i)
  rw [hdesc]
  rcases hwait t m i y hw with hw | hkey
  · exact hs t m i y hw hold
  · exact hkey

/-- The used slots after an update that leaves the registration alone. -/
theorem update_keeps {slots : Slots} {slot : ServiceSlot}
    (hslot : slot.used = true → (slots x).used = true ∧ slot.desc = (slots x).desc) :
    ∀ y, (Function.update slots x slot y).used = true →
      (slots y).used = true ∧ (Function.update slots x slot y).desc = (slots y).desc := by
  intro y hy
  by_cases hyx : y = x
  · subst hyx
    rw [Function.update_self] at hy ⊢
    exact hslot hy
  · rw [Function.update_of_ne hyx] at hy ⊢
    exact ⟨hy, rfl⟩

/-- A registration is the one `find_service` finds under its key. -/
theorem ReferenceSafe.findService_registered (hs : ReferenceSafe s) (hr : Registered s x desc) :
    findService s.slots desc.moduleId desc.interfaceId = some x := by
  obtain ⟨hused, hdesc⟩ := hr
  have hsome := (findService_isSome_iff s.slots desc.moduleId desc.interfaceId).mpr
    ⟨x, hused, by rw [hdesc]; rfl⟩
  obtain ⟨y, hy⟩ := Option.isSome_iff_exists.mp hsome
  obtain ⟨hyused, hykey⟩ := findService_eq_some hy
  rw [hy, hs.distinct y x hyused hused (by rw [hykey, hdesc]; rfl)]

variable [DecidableEq Tid] {sizeMax : Nat}

/-- A waiting call of another thread after a thread has gone to `w`. -/
theorem waiting_update {waiting : Tid → WaitState} {t t' : Tid} {w w' : WaitState}
    (h : Function.update waiting t w t' = w') : w' = w ∨ waiting t' = w' := by
  by_cases htt : t' = t
  · subst htt
    rw [Function.update_self] at h
    exact Or.inl h.symm
  · rw [Function.update_of_ne htt] at h
    exact Or.inr h

theorem Owned.effect (hs : Owned s) {e : Event Tid} {ret : Option SysErr}
    (heff : Effect s e ret s') (hsafe : RegisterSafe s e) : Owned s' := by
  -- a thread that becomes idle is no waiter
  have hidle : ∀ {t t' m i y}, Function.update s.waiting t .idle t' = .unregister m i y →
      s.waiting t' = .unregister m i y ∨ (s.slots y).desc.key = (m, i) := by
    intro t t' m i y hw
    rcases waiting_update hw with hw | hw
    · cases hw
    · exact Or.inl hw
  have hsame : ∀ t m i y, s.waiting t = .unregister m i y →
      s.waiting t = .unregister m i y ∨ (s.slots y).desc.key = (m, i) := fun _ _ _ _ => Or.inl
  cases heff with
  | unchanged => exact hs
  | @registered t desc x hslot hfree hnew =>
      intro t' m i y hw hused
      dsimp only at hw hused ⊢
      by_cases hyx : y = x
      · subst hyx
        rw [Function.update_self]
        exact hsafe y hslot t' m i hw
      · rw [Function.update_of_ne hyx] at hused ⊢
        exact hs t' m i y hw hused
  | acquired hused => exact hs.of_slots (update_keeps fun _ => ⟨hused, rfl⟩) hsame
  | released hm => exact hs.of_slots (update_keeps fun hu => ⟨hu, rfl⟩) hsame
  | @closing t m i x hused hkey =>
      refine hs.of_slots (update_keeps fun _ => ⟨hused, rfl⟩) fun t' m' i' y hw => ?_
      rcases waiting_update hw with hw | hw
      · cases hw
        exact Or.inr hkey
      · exact Or.inl hw
  | unregistered => exact hs.of_slots (update_keeps fun hu => nomatch hu) fun _ _ _ _ => hidle
  | woken => exact hs.of_slots (update_keeps fun hu => nomatch hu) fun _ _ _ _ => hidle
  | resetting =>
      refine hs.of_slots (fun y hu => ⟨hu, rfl⟩) fun t' m i y hw => ?_
      rcases waiting_update hw with hw | hw
      · cases hw
      · exact Or.inl hw
  | resetDone => exact hs.of_slots (fun y hu => nomatch hu) fun _ _ _ _ => hidle

/-- A registration survives a critical section or is cleared by its owner. -/
theorem Registered.effect (hr : Registered s x desc) (hs : Owned s) {e : Event Tid}
    {ret : Option SysErr} (heff : Effect s e ret s') :
    Registered s' x desc ∨ (OwnerCall s x e ∧ (s'.slots x).used = false) := by
  have hupdate : ∀ {y : Fin serviceMaxEntries} {slot : ServiceSlot},
      (y = x → slot.used = true ∧ slot.desc = (s.slots x).desc) →
      (Function.update s.slots y slot x).used = true ∧
        (Function.update s.slots y slot x).desc = desc := by
    intro y slot hslot
    by_cases hyx : x = y
    · subst hyx
      rw [Function.update_self]
      exact ⟨(hslot rfl).1, (hslot rfl).2.trans hr.2⟩
    · rw [Function.update_of_ne hyx]
      exact hr
  -- a slot that is cleared is that of the registration or another one
  have hclear : ∀ {y : Fin serviceMaxEntries} {waiting : Tid → WaitState} {e : Event Tid},
      (x = y → OwnerCall s x e) →
      Registered { s with slots := Function.update s.slots y {}, waiting := waiting } x desc ∨
        (OwnerCall s x e ∧ (Function.update s.slots y {} x).used = false) := by
    intro y waiting e howner
    by_cases hyx : x = y
    · refine Or.inr ⟨howner hyx, ?_⟩
      subst hyx
      rw [Function.update_self]
    · refine Or.inl ⟨?_, ?_⟩
      · show (Function.update s.slots y {} x).used = true
        rw [Function.update_of_ne hyx]
        exact hr.1
      · show (Function.update s.slots y {} x).desc = desc
        rw [Function.update_of_ne hyx]
        exact hr.2
  cases heff with
  | unchanged => exact Or.inl hr
  | @registered t d y hslot hfree hnew =>
      refine Or.inl (hupdate fun hyx => ?_)
      rw [hyx, hr.1] at hfree
      cases hfree
  | acquired hused => exact Or.inl (hupdate fun hyx => by subst hyx; exact ⟨hused, rfl⟩)
  | released hm => exact Or.inl (hupdate fun hyx => by subst hyx; exact ⟨hr.1, rfl⟩)
  | closing hused => exact Or.inl (hupdate fun hyx => by subst hyx; exact ⟨hused, rfl⟩)
  | unregistered _ hkey => exact hclear fun hxy => by subst hxy; exact hkey
  | @woken t m i y hw _ =>
      refine hclear fun hxy => ?_
      subst hxy
      simp only [OwnerCall, hw]
      exact hs t m i x hw hr.1
  | resetting => exact Or.inl hr
  | @resetDone e t he _ =>
      refine Or.inr ⟨?_, rfl⟩
      rcases he with rfl | ⟨rfl, hw⟩
      · exact trivial
      · simp only [OwnerCall, hw]

/-- The runs in which every registration is safe. -/
abbrev safeMachine (Tid : Type*) [DecidableEq Tid] (sizeMax : Nat) :
    Machine (Registry Tid) (Event Tid) :=
  (registryMachine Tid sizeMax).restrict fun s e _ => RegisterSafe s e

theorem Owned.of_run {es : List (Event Tid)} (hs : Owned s)
    (hrun : (safeMachine Tid sizeMax).Run s es s') : Owned s' := by
  refine hrun.invariant (fun u e v hu hstep => ?_) hs
  obtain ⟨ret, heff⟩ := step_effect hstep.1
  exact hu.effect heff hstep.2

/-- A successful registration takes the slot `registerSlot` names. -/
theorem registered_of_criticalSection {t : Tid}
    (h : criticalSection sizeMax s (.register t (some desc)) = some (some .ok, s')) :
    ∃ x, registerSlot desc s.slots = some x ∧ s.waiting t = .idle ∧
      s' = { s with slots := Function.update s.slots x ⟨true, true, 0, desc⟩ } := by
  have hidle : s.waiting t = .idle := by
    by_contra hne
    simp [criticalSection, Event.thread, hne] at h
  simp only [criticalSection, Event.thread, hidle, if_true, enter, Option.some.injEq,
    Prod.mk.injEq] at h
  obtain ⟨hret, rfl⟩ := h
  rcases sysServiceRegister_spec desc s.slots with ⟨x, hslot, -, -, heq⟩ | ⟨ret, hne, heq⟩
  · exact ⟨x, hslot, hidle, by rw [heq]⟩
  · rw [heq] at hret
    exact absurd hret hne

/-- A registration that goes to a slot a sleeping unregister of another key points at
    is removed by that call when it wakes up next. -/
theorem registration_lost_of_stale {t t' : Tid} {m i : UInt32}
    (hslot : registerSlot desc s.slots = some x) (hw : s.waiting t' = .unregister m i x)
    (hreg : criticalSection sizeMax s (.register t (some desc)) = some (some .ok, s')) :
    Registered s' x desc ∧
      ∃ s'', criticalSection sizeMax s' (.wake t') = some (some .ok, s'') ∧
        (s''.slots x).used = false := by
  obtain ⟨y, hy, -, rfl⟩ := registered_of_criticalSection hreg
  obtain rfl : x = y := Option.some.inj (hslot.symm.trans hy)
  refine ⟨⟨by simp, by simp⟩, ?_⟩
  simp [criticalSection, resume, hw, unregisterLoop, Registry.park]

end Ownership

/-- In every run whose registrations are safe, a registration keeps its slot and
    descriptor and is found under its key, until a critical section of an unregister
    call for its key or of a reset clears it. -/
theorem registration_persists (Tid : Type*) [DecidableEq Tid] (sizeMax : Nat)
    {s₁ s₂ s₃ : Registry Tid} {t : Tid} {desc : ServiceDesc} {es : List (Event Tid)}
    (hreach : (safeMachine Tid sizeMax).Reachable s₁)
    (hsafe : RegisterSafe s₁ (.register t (some desc)))
    (hreg : criticalSection sizeMax s₁ (.register t (some desc)) = some (some .ok, s₂))
    (hrun : (safeMachine Tid sizeMax).Run s₂ es s₃) :
    ∃ x, Registered s₂ x desc ∧
      ((Registered s₃ x desc ∧
          findService s₃.slots desc.moduleId desc.interfaceId = some x) ∨
        ∃ pre e post u v, es = pre ++ e :: post ∧ (safeMachine Tid sizeMax).Run s₂ pre u ∧
          (safeMachine Tid sizeMax).step u e v ∧ Registered u x desc ∧ OwnerCall u x e ∧
          (v.slots x).used = false) := by
  have hstep : (safeMachine Tid sizeMax).step s₁ (.register t (some desc)) s₂ :=
    ⟨step_of_criticalSection hreg, hsafe⟩
  have howned : Owned s₂ := by
    obtain ⟨s₀, fs, rfl, hrun₀⟩ := hreach
    have hzero : Owned (Registry.zero : Registry Tid) := fun t m i x hw => nomatch hw
    exact hzero.of_run (Machine.Run.snoc hrun₀ hstep)
  have hreach₃ : (registryMachine Tid sizeMax).Reachable s₃ := by
    obtain ⟨s₀, fs, hs₀, hrun₀⟩ := hreach.step hstep
    exact ⟨s₀, fs ++ es, hs₀, hrun₀.of_restrict.append hrun.of_restrict⟩
  obtain ⟨x, -, -, rfl⟩ := registered_of_criticalSection hreg
  refine ⟨x, ⟨by simp, by simp⟩, ?_⟩
  by_cases hkept : Registered s₃ x desc
  · exact Or.inl ⟨hkept, (referenceSafe_of_reachable hreach₃).findService_registered hkept⟩
  · right
    -- the step at which the registration is lost
    obtain ⟨pre, e, post, u, v, heq, hpre, hlast, hu, hv⟩ :=
      hrun.exists_losing_step (P := fun s => Registered s x desc) ⟨by simp, by simp⟩ hkept
    obtain ⟨ret, heff⟩ := step_effect hlast.1
    rcases hu.effect (howned.of_run hpre) heff with h | ⟨howner, hclear⟩
    · exact absurd h hv
    · exact ⟨pre, e, post, u, v, heq, hpre, hlast, hu, howner, hclear⟩

/-- Service `(1, 1)` is in use, and thread `true` sleeps in its unregister. -/
def sleepingRun : List (Event Bool) :=
  [.register false (some (.sample 1 1)), .acquire false 1 1 1 8 (some {}), .unregister true 1 1]

/-- It clears that service, and then sleeps in an unregister of service `(2, 1)`, which it
    clears in the end. -/
def clearingRun : List (Event Bool) :=
  [.release false ⟨0, 0, .sample 1 1⟩, .wake true, .acquire false 2 1 1 8 (some {}),
    .unregister true 2 1, .release false ⟨1, 1, .sample 2 1⟩, .wake true]

/-- Service `(2, 1)` is registered between the two. -/
theorem registration_persists_cleared :
    ∃ s₁ s₂ s₃ : Registry Bool, s₁.waiting true = .unregister 1 1 0 ∧
      criticalSection 1000 s₁ (.register false (some (.sample 2 1))) = some (some .ok, s₂) ∧
      (safeMachine Bool 1000).Run s₂ clearingRun s₃ ∧ ∃ x, Registered s₂ x (.sample 2 1) ∧
        ∃ pre e post u v, clearingRun = pre ++ e :: post ∧
          (safeMachine Bool 1000).Run s₂ pre u ∧ (safeMachine Bool 1000).step u e v ∧
          Registered u x (.sample 2 1) ∧ OwnerCall u x e ∧ (v.slots x).used = false := by
  -- where the sleeping call stands when the other service is registered
  have hasleep : (Machine.exec (next 1000) (Registry.zero : Registry Bool) sleepingRun).map
      (fun s => (registerSlot (.sample 2 1) s.slots, s.waiting false, s.waiting true)) =
      some (some 1, .idle, .unregister 1 1 0) := by
    decide
  obtain ⟨s₁, hs₁, hfacts⟩ := Option.map_eq_some_iff.mp hasleep
  simp only [Prod.mk.injEq] at hfacts
  obtain ⟨hslot, hidle, hwait⟩ := hfacts
  have hempty : (Machine.exec (next 1000) (Registry.zero : Registry Bool) sleepingRun).bind
      (fun s => (criticalSection 1000 s (.register false (some (.sample 2 1)))).bind fun r =>
        (Machine.exec (next 1000) r.2 clearingRun).map fun t =>
          (r.1, (List.finRange serviceMaxEntries).all fun y => !(t.slots y).used)) =
      some (some .ok, true) := by
    decide
  rw [hs₁, Option.bind_some] at hempty
  obtain ⟨⟨ret, s₂⟩, hreg, hrest⟩ := Option.bind_eq_some_iff.mp hempty
  obtain ⟨s₃, hs₃, hunused⟩ := Option.map_eq_some_iff.mp hrest
  simp only [Prod.mk.injEq] at hunused
  obtain ⟨rfl, hunused⟩ := hunused
  have hreach : (safeMachine Bool 1000).Reachable s₁ := by
    refine ⟨_, _, rfl, Machine.Run.of_exec_along hs₁ ⟨fun x _ t m i hw => ?_, fun _ _ =>
      ⟨trivial, fun _ _ => ⟨trivial, fun _ _ => trivial⟩⟩⟩⟩
    cases hw
  -- the slot of the sleeping call is not free
  have hsafe : RegisterSafe s₁ (.register false (some (.sample 2 1))) := by
    intro x hx t m i hw
    obtain rfl := Option.some.inj (hslot.symm.trans hx)
    cases t with
    | false =>
        rw [hidle] at hw
        cases hw
    | true =>
        rw [hwait] at hw
        cases hw
  have hrun : (safeMachine Bool 1000).Run s₂ clearingRun s₃ :=
    Machine.Run.of_exec_along hs₃ ⟨trivial, fun _ _ => ⟨trivial, fun _ _ => ⟨trivial, fun _ _ =>
      ⟨trivial, fun _ _ => ⟨trivial, fun _ _ => ⟨trivial, fun _ _ => trivial⟩⟩⟩⟩⟩⟩
  obtain ⟨x, hx, hkept | hcleared⟩ := registration_persists Bool 1000 hreach hsafe hreg hrun
  · have hfree := List.all_eq_true.mp hunused x (List.mem_finRange x)
    rw [hkept.1.1] at hfree
    cases hfree
  · exact ⟨s₁, s₂, s₃, hwait, hreg, hrun, x, hx, hcleared⟩

/-- Two unregister calls for service `(1, 1)` sleep on its slot; the first to wake clears
    it, service `(2, 1)` is registered there, and the second removes that service. -/
theorem unregister_removes_other_service :
    ∃ s₂ s₃ : Registry Nat,
      Machine.exec (next 1000) Registry.zero
        [.register 0 (some (.sample 1 1)), .acquire 0 1 1 1 8 (some {}), .unregister 1 1 1,
          .unregister 2 1 1, .release 0 ⟨0, 0, .sample 1 1⟩, .wake 1,
          .register 0 (some (.sample 2 1))] = some s₂ ∧
      Registered s₂ 0 (.sample 2 1) ∧
      s₂.waiting 2 = .unregister 1 1 0 ∧
      criticalSection 1000 s₂ (.wake 2) = some (some .ok, s₃) ∧
      findService s₃.slots 2 1 = none := by
  have hrun : (Machine.exec (next 1000) (Registry.zero : Registry Nat)
      [.register 0 (some (.sample 1 1)), .acquire 0 1 1 1 8 (some {}), .unregister 1 1 1,
        .unregister 2 1 1, .release 0 ⟨0, 0, .sample 1 1⟩, .wake 1,
        .register 0 (some (.sample 2 1))]).map
        (fun s => (s.slots 0, s.waiting 2,
          (criticalSection 1000 s (.wake 2)).map fun r => (r.1, findService r.2.slots 2 1))) =
      some (⟨true, true, 0, .sample 2 1⟩, .unregister 1 1 0, some (some .ok, none)) := by
    decide
  obtain ⟨s₂, hs₂, hx⟩ := Option.map_eq_some_iff.mp hrun
  simp only [Prod.mk.injEq] at hx
  obtain ⟨hslot, hwait, hwake⟩ := hx
  obtain ⟨⟨ret, s₃⟩, hs₃, hfind⟩ := Option.map_eq_some_iff.mp hwake
  obtain ⟨rfl, hnone⟩ := Prod.mk.inj hfind
  exact ⟨s₂, s₃, hs₂, by rw [Registered, hslot]; exact ⟨rfl, rfl⟩, hwait, hs₃, hnone⟩

end Service
end AppCore
