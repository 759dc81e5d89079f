/-
  AppCore.Features.Calls

  The calls of the features' operations in every run.  A call is in an operation only while the
  feature is registered, and the reference counts of the registry are the numbers of calls, so
  that a `deinit` waits for the calls of its own operations and for nothing else.
-/

import AppCore.Features.System
import AppCore.Lib.Counter

namespace AppCore
namespace Features

open Service (Registry ReferenceSafe Holding closedSlots registryMachine serviceMaxEntries)

variable {K : Type*} [DecidableEq K] {P : Platform} {A : Tables} {s s' : System K} {e : Event K}

/-! ## The registry -/

theorem enter_step {ret : Option SysErr} {event : Service.Event (Caller K)}
    (h : s.enter P event = some (ret, s')) :
    (registryMachine (Caller K) P.sizeMax).step s.registry event s'.registry := by
  obtain ⟨registry, hsection, rfl⟩ := enter_eq_some h
  exact Service.step_of_criticalSection hsection

/-- Every step is one of the registry, or none. -/
theorem next_registry (h : next P A s e = some s') : s'.registry = s.registry ∨
    ∃ event, (registryMachine (Caller K) P.sizeMax).step s.registry event s'.registry := by
  cases e with
  | init f =>
      obtain ⟨-, hentered⟩ := Option.ite_none_right_eq_some.mp h
      obtain ⟨⟨ret, u⟩, henter, rfl⟩ := Option.map_eq_some_iff.mp hentered
      have hstep := enter_step henter
      dsimp only
      split
      · exact Or.inr ⟨_, hstep⟩
      · exact Or.inr ⟨_, hstep⟩
  | deinit f =>
      obtain ⟨-, hentered⟩ := Option.ite_none_right_eq_some.mp h
      obtain ⟨⟨ret, u⟩, henter, rfl⟩ := Option.map_eq_some_iff.mp hentered
      have hstep := enter_step henter
      exact Or.inr ⟨_, hstep⟩
  | deinitWake f =>
      obtain ⟨-, hentered⟩ := Option.ite_none_right_eq_some.mp h
      obtain ⟨⟨ret, u⟩, henter, rfl⟩ := Option.map_eq_some_iff.mp hentered
      have hstep := enter_step henter
      dsimp only
      split
      · exact Or.inr ⟨_, hstep⟩
      · exact Or.inr ⟨_, hstep⟩
  | reset =>
      obtain ⟨⟨ret, u⟩, henter, rfl⟩ := Option.map_eq_some_iff.mp h
      have hstep := enter_step henter
      exact Or.inr ⟨_, hstep⟩
  | resetWake =>
      obtain ⟨⟨ret, u⟩, henter, rfl⟩ := Option.map_eq_some_iff.mp h
      have hstep := enter_step henter
      exact Or.inr ⟨_, hstep⟩
  | call k c =>
      unfold next at h
      dsimp only at h
      split at h
      · cases h
      split at h
      · obtain rfl := Option.some.inj h
        exact Or.inl rfl
      split at h
      · rename_i henter
        obtain ⟨ref, -, rfl⟩ := Option.map_eq_some_iff.mp h
        have hstep := enter_step henter
        exact Or.inr ⟨_, hstep⟩
      · rename_i henter
        obtain rfl := Option.some.inj h
        have hstep := enter_step henter
        exact Or.inr ⟨_, hstep⟩
      · cases h
  | operate k =>
      cases operate_cases h with
      | goesOn _ _ _ => exact Or.inl rfl
      | resetDone he _ => simp at he
  | operationReturns k ret =>
      cases operationReturns_cases h with
      | goesOn _ _ _ => exact Or.inl rfl
      | resetDone he _ => simp at he
  | release k =>
      unfold next at h
      dsimp only at h
      split at h
      · obtain ⟨⟨ret', u⟩, henter, rfl⟩ := Option.map_eq_some_iff.mp h
        have hstep := enter_step henter
        exact Or.inr ⟨_, hstep⟩
      · cases h

/-- What holds of the registry under all its callers holds here. -/
theorem registry_reachable (h : (featureMachine K P A).Reachable s) :
    (registryMachine (Caller K) P.sizeMax).Reachable s.registry := by
  apply h.invariant (I := fun s => (registryMachine (Caller K) P.sizeMax).Reachable s.registry)
  · intro s hs
    obtain rfl : s = System.zero K := hs
    exact ⟨_, [], rfl, Machine.Run.nil⟩
  · intro u e v hu hstep
    rcases next_registry hstep with heq | ⟨event, hregistry⟩
    · rw [heq]
      exact hu
    · exact hu.step hregistry

theorem registry_safe (h : (featureMachine K P A).Reachable s) : ReferenceSafe s.registry :=
  Service.referenceSafe_of_reachable (registry_reachable h)

/-! ## Who waits -/

section Waiting

variable {f : Feature} {life : Life} {w : Service.WaitState}
  {slots : Service.Slots} {outstanding : List Holding} {serial : Nat}

/-- A feature goes on to another part of its life. -/
theorem System.Waiting.update (h : s.Waiting)
    (hidle : life ≠ .stopping → w = .idle)
    (hstopping : life = .stopping → ∃ x, w = .unregister f.moduleId f.interfaceId x) :
    System.Waiting (⟨⟨slots, Function.update s.registry.waiting (.component f) w, outstanding,
      serial⟩, Function.update s.life f life, s.calls⟩ : System K) := by
  have hne : ∀ c : Caller K, c ≠ .component f →
      Function.update s.registry.waiting (.component f) w c = s.registry.waiting c :=
    fun c hc => Function.update_of_ne hc ..
  refine ⟨fun k => ?_, fun g hg => ?_, fun g hg => ?_, ?_⟩
  · exact (hne _ (by simp)).trans (h.facade k)
  · by_cases hgf : g = f
    · subst hgf
      have hlife : life ≠ .stopping := by simpa using hg
      exact (Function.update_self ..).trans (hidle hlife)
    · have hlife : s.life g ≠ .stopping := by simpa [Function.update_of_ne hgf] using hg
      exact (hne _ (by simpa using hgf)).trans (h.component g hlife)
  · by_cases hgf : g = f
    · subst hgf
      have hlife : life = .stopping := by simpa using hg
      obtain ⟨x, hx⟩ := hstopping hlife
      exact ⟨x, (Function.update_self ..).trans hx⟩
    · have hlife : s.life g = .stopping := by simpa [Function.update_of_ne hgf] using hg
      obtain ⟨x, hx⟩ := h.stopping g hlife
      exact ⟨x, (hne _ (by simpa using hgf)).trans hx⟩
  · rcases h.core with hcore | hcore
    · exact Or.inl ((hne _ (by simp)).trans hcore)
    · exact Or.inr ((hne _ (by simp)).trans hcore)

/-- A feature that does not wait, before and after. -/
theorem System.Waiting.setLife (h : s.Waiting) (hbefore : s.life f ≠ .stopping)
    (hafter : life ≠ .stopping) :
    System.Waiting (⟨⟨slots, s.registry.waiting, outstanding, serial⟩,
      Function.update s.life f life, s.calls⟩ : System K) := by
  have hsame : Function.update s.registry.waiting (.component f) .idle = s.registry.waiting := by
    rw [← h.component f hbefore]
    exact Function.update_eq_self ..
  have hupdated : System.Waiting (⟨⟨slots, Function.update s.registry.waiting (.component f) .idle,
      outstanding, serial⟩, Function.update s.life f life, s.calls⟩ : System K) :=
    h.update (fun _ => rfl) fun hstopping => absurd hstopping hafter
  rwa [hsame] at hupdated

/-- The core begins to wait or stops waiting. -/
theorem System.Waiting.setCore (h : s.Waiting) (hw : w = .idle ∨ w = .reset) :
    System.Waiting (⟨⟨slots, Function.update s.registry.waiting .core w, outstanding, serial⟩,
      s.life, s.calls⟩ : System K) := by
  have hne : ∀ c : Caller K, c ≠ .core →
      Function.update s.registry.waiting .core w c = s.registry.waiting c :=
    fun c hc => Function.update_of_ne hc ..
  refine ⟨fun k => (hne _ (by simp)).trans (h.facade k), fun g hg => ?_, fun g hg => ?_, ?_⟩
  · exact (hne _ (by simp)).trans (h.component g hg)
  · obtain ⟨x, hx⟩ := h.stopping g hg
    exact ⟨x, (hne _ (by simp)).trans hx⟩
  · show Function.update s.registry.waiting .core w .core = .idle ∨ _
    rw [Function.update_self]
    exact hw

theorem step_waiting (h : FeatureStep P A s e s') (hs : s.Waiting) : s'.Waiting := by
  cases h with
  | initialised hdown _ _ =>
      refine hs.setLife ?_ ?_
      · rw [hdown]
        decide
      · decide
  | initRefused _ => exact hs
  | deinitialised _ _ _ _ => exact hs.update (fun _ => rfl) fun hlife => (by cases hlife)
  | closing _ _ _ _ => exact hs.update (fun hlife => absurd rfl hlife) fun _ => ⟨_, rfl⟩
  | deinitUnknown hup _ =>
      refine hs.setLife ?_ ?_
      · rw [hup]
        decide
      · decide
  | deinitWaits _ => exact hs
  | deinitDone _ _ _ => exact hs.update (fun _ => rfl) fun hlife => (by cases hlife)
  | resetting _ => exact hs.setCore (Or.inr rfl)
  | resetWaits => exact hs
  | resetDone _ _ => exact hs.setCore (Or.inl rfl)
  | refused _ _ => exact ⟨hs.facade, hs.component, hs.stopping, hs.core⟩
  | acquired _ _ _ _ _ => exact ⟨hs.facade, hs.component, hs.stopping, hs.core⟩
  | goesOn _ _ _ => exact ⟨hs.facade, hs.component, hs.stopping, hs.core⟩
  | released _ _ => exact ⟨hs.facade, hs.component, hs.stopping, hs.core⟩

end Waiting

/-! ## What is registered -/

/-- Only features are registered, each of them between its `init` and its `deinit`. -/
structure System.Registered (P : Platform) (A : Tables) (s : System K) : Prop where
  known : ∀ x, (s.registry.slots x).used = true →
    ∃ f, (s.registry.slots x).desc = A.service P f ∧ s.life f ≠ .down
  /-- A `deinit` waits on the slot of its own feature, if the feature has one. -/
  stopping : ∀ f x, s.registry.waiting (.component f) = .unregister f.moduleId f.interfaceId x →
    s.life f = .stopping → ∀ y, (s.registry.slots y).used = true →
      (s.registry.slots y).desc = A.service P f → y = x ∧ (s.registry.slots y).accepting = false

section Registered

variable {f g : Feature} {x y : Fin serviceMaxEntries}

omit [DecidableEq K] in
/-- The slot of a feature. -/
theorem System.Registered.desc_eq (h : s.Registered P A) (hused : (s.registry.slots x).used = true)
    (hkey : (s.registry.slots x).desc.key = (A.service P f).key) :
    (s.registry.slots x).desc = A.service P f ∧ s.life f ≠ .down := by
  obtain ⟨g, hg, hlife⟩ := h.known x hused
  rw [hg] at hkey
  obtain rfl := A.service_injective P hkey
  exact ⟨hg, hlife⟩

omit [DecidableEq K] in
theorem feature_ne_of_slot_ne (hsafe : ReferenceSafe s.registry)
    (hx : (s.registry.slots x).used = true)
    (hkey : (s.registry.slots x).desc.key = (A.service P f).key)
    (hy : (s.registry.slots y).used = true) (hne : y ≠ x)
    (hdesc : (s.registry.slots y).desc = A.service P g) : g ≠ f := by
  rintro rfl
  apply hne
  apply hsafe.distinct y x hy hx
  rw [hdesc, hkey]

omit [DecidableEq K] in
theorem initialised_registered (hs : s.Registered P A) (hdown : s.life f = .down)
    (hnew : ∀ y, (s.registry.slots y).used = true →
      (s.registry.slots y).desc.key ≠ (A.service P f).key) :
    System.Registered P A (({ s with registry := { s.registry with
      slots := Function.update s.registry.slots x ⟨true, true, 0, A.service P f⟩ } } :
        System K).setLife f .up) := by
  have hother : ∀ y g, (s.registry.slots y).used = true →
      (s.registry.slots y).desc = A.service P g → g ≠ f := by
    rintro y g hy hdesc rfl
    exact hnew y hy (by rw [hdesc])
  constructor
  · intro y hy
    by_cases hyx : y = x
    · subst hyx
      refine ⟨f, by simp [System.setLife], ?_⟩
      simp [System.setLife]
    · have hy : (s.registry.slots y).used = true := by
        simpa [System.setLife, Function.update_of_ne hyx] using hy
      obtain ⟨g, hg, hlife⟩ := hs.known y hy
      refine ⟨g, by simpa [System.setLife, Function.update_of_ne hyx] using hg, ?_⟩
      simpa [System.setLife, Function.update_of_ne (hother y g hy hg)] using hlife
  · intro g z hwait hlife y hy hdesc
    have hgf : g ≠ f := by
      rintro rfl
      simp [System.setLife] at hlife
    have hlife : s.life g = .stopping := by
      simpa [System.setLife, Function.update_of_ne hgf] using hlife
    by_cases hyx : y = x
    · subst hyx
      have hdesc : A.service P f = A.service P g := by simpa [System.setLife] using hdesc
      exact absurd (A.service_injective P (by rw [hdesc])) hgf
    · have hy : (s.registry.slots y).used = true := by
        simpa [System.setLife, Function.update_of_ne hyx] using hy
      have hdesc : (s.registry.slots y).desc = A.service P g := by
        simpa [System.setLife, Function.update_of_ne hyx] using hdesc
      obtain ⟨heq, hacc⟩ := hs.stopping g z hwait hlife y hy hdesc
      exact ⟨heq, by simpa [System.setLife, Function.update_of_ne hyx] using hacc⟩

/-- A feature goes down, and no slot is left of it. -/
theorem down_registered {w : Service.WaitState} (hs : s.Registered P A)
    {slots : Service.Slots} (hslots : ∀ y, (slots y).used = true → slots y = s.registry.slots y)
    (hgone : ∀ y, (slots y).used = true → (slots y).desc ≠ A.service P f) :
    System.Registered P A (({ s with registry := { s.registry with
      slots := slots
      waiting := Function.update s.registry.waiting (.component f) w } } :
        System K).setLife f .down) := by
  constructor
  · intro y (hy : (slots y).used = true)
    have hsame := hslots y hy
    obtain ⟨g, hg, hlife⟩ := hs.known y (by rwa [← hsame])
    have hgf : g ≠ f := by
      rintro rfl
      exact hgone y hy (hsame ▸ hg)
    refine ⟨g, (congrArg Service.ServiceSlot.desc hsame).trans hg, ?_⟩
    simpa [System.setLife, Function.update_of_ne hgf] using hlife
  · intro g z hwait hlife y (hy : (slots y).used = true) (hdesc : (slots y).desc = _)
    have hgf : g ≠ f := by
      rintro rfl
      exact hgone y hy hdesc
    have hlife : s.life g = .stopping := by
      simpa [System.setLife, Function.update_of_ne hgf] using hlife
    have hcaller : (.component g : Caller K) ≠ .component f := by simpa using hgf
    have hwait : s.registry.waiting (.component g) = .unregister g.moduleId g.interfaceId z := by
      simpa [System.setLife, Function.update_of_ne hcaller] using hwait
    have hsame := hslots y hy
    obtain ⟨heq, hacc⟩ := hs.stopping g z hwait hlife y (by rwa [← hsame]) (hsame ▸ hdesc)
    exact ⟨heq, (congrArg Service.ServiceSlot.accepting hsame).trans hacc⟩

theorem closing_registered (hs : s.Registered P A) (hsafe : ReferenceSafe s.registry)
    (hused : (s.registry.slots x).used = true)
    (hkey : (s.registry.slots x).desc.key = (A.service P f).key) :
    System.Registered P A (({ s with registry := { s.registry with
      slots := Function.update s.registry.slots x { s.registry.slots x with accepting := false }
      waiting := Function.update s.registry.waiting (.component f)
        (.unregister f.moduleId f.interfaceId x) } } : System K).setLife f .stopping) := by
  have hslot : ∀ y, (Function.update s.registry.slots x
        { s.registry.slots x with accepting := false } y).used = (s.registry.slots y).used ∧
      (Function.update s.registry.slots x
        { s.registry.slots x with accepting := false } y).desc = (s.registry.slots y).desc := by
    intro y
    by_cases hyx : y = x
    · subst hyx
      simp
    · simp [Function.update_of_ne hyx]
  constructor
  · intro y hy
    obtain ⟨g, hg, hlife⟩ := hs.known y ((hslot y).1.symm.trans hy)
    refine ⟨g, (hslot y).2.trans hg, ?_⟩
    by_cases hgf : g = f
    · subst hgf
      simp [System.setLife]
    · simpa [System.setLife, Function.update_of_ne hgf] using hlife
  · intro g z hwait hlife y hy hdesc
    have hyused : (s.registry.slots y).used = true := (hslot y).1.symm.trans hy
    have hydesc : (s.registry.slots y).desc = A.service P g := (hslot y).2.symm.trans hdesc
    by_cases hgf : g = f
    · subst hgf
      have hyx : y = x := hsafe.distinct y x hyused hused (by rw [hydesc, hkey])
      have hzx : x = z := by simpa [System.setLife] using hwait
      subst hyx
      exact ⟨hzx, by simp [System.setLife]⟩
    · have hlife : s.life g = .stopping := by
        simpa [System.setLife, Function.update_of_ne hgf] using hlife
      have hcaller : (.component g : Caller K) ≠ .component f := by simpa using hgf
      have hwait : s.registry.waiting (.component g) =
          .unregister g.moduleId g.interfaceId z := by
        simpa [System.setLife, Function.update_of_ne hcaller] using hwait
      obtain ⟨heq, hacc⟩ := hs.stopping g z hwait hlife y hyused hydesc
      refine ⟨heq, ?_⟩
      have hyx : y ≠ x := by
        rintro rfl
        rw [hydesc] at hkey
        exact hgf (A.service_injective P hkey)
      simpa [System.setLife, Function.update_of_ne hyx] using hacc

omit [DecidableEq K] in
/-- Slots with the same descriptors, closed or not. -/
theorem System.Registered.of_slots (hs : s.Registered P A) {registry : Registry (Caller K)}
    {calls : K → CallState}
    (hslots : ∀ y, (registry.slots y).used = true → (s.registry.slots y).used = true ∧
      (registry.slots y).desc = (s.registry.slots y).desc ∧
      ((s.registry.slots y).accepting = false → (registry.slots y).accepting = false))
    (hwait : ∀ f, registry.waiting (.component f) = s.registry.waiting (.component f)) :
    System.Registered P A (⟨registry, s.life, calls⟩ : System K) := by
  constructor
  · intro y hy
    obtain ⟨hused, hdesc, -⟩ := hslots y hy
    obtain ⟨g, hg, hlife⟩ := hs.known y hused
    exact ⟨g, hdesc.trans hg, hlife⟩
  · intro f x hx hlife y hy hdesc
    obtain ⟨hused, hdesc', hclosed⟩ := hslots y hy
    obtain ⟨heq, hacc⟩ := hs.stopping f x ((hwait f).symm.trans hx) hlife y hused
      (hdesc'.symm.trans hdesc)
    exact ⟨heq, hclosed hacc⟩

/-- A slot whose reference count alone changes. -/
theorem recount_slots (slots : Service.Slots) (x y : Fin serviceMaxEntries) (n : Nat) :
    (Function.update slots x { slots x with referenceCount := n } y).used = (slots y).used ∧
      (Function.update slots x { slots x with referenceCount := n } y).desc = (slots y).desc ∧
      (Function.update slots x { slots x with referenceCount := n } y).accepting =
        (slots y).accepting := by
  by_cases hyx : y = x
  · subst hyx
    simp
  · simp [Function.update_of_ne hyx]

/-- A slot that is cleared is not used any more, and the others stay. -/
theorem cleared_slots {slots : Service.Slots} (x : Fin serviceMaxEntries)
    {y : Fin serviceMaxEntries}
    (hy : (Function.update slots x {} y).used = true) :
    y ≠ x ∧ Function.update slots x {} y = slots y := by
  have hne : y ≠ x := by
    rintro rfl
    simp at hy
  exact ⟨hne, Function.update_of_ne hne ..⟩

theorem step_registered (h : FeatureStep P A s e s') (hsafe : ReferenceSafe s.registry)
    (hwaiting : s.Waiting) (hs : s.Registered P A) : s'.Registered P A := by
  cases h with
  | initialised hdown _ hnew => exact initialised_registered hs hdown hnew
  | initRefused _ => exact hs
  | @deinitialised f x hup hused hkey _ =>
      refine down_registered hs (fun y hy => (cleared_slots x hy).2) fun y hy hdesc => ?_
      obtain ⟨hne, hsame⟩ := cleared_slots x hy
      rw [hsame] at hy hdesc
      exact feature_ne_of_slot_ne hsafe hused hkey hy hne hdesc rfl
  | closing _ hused hkey _ => exact closing_registered hs hsafe hused hkey
  | @deinitUnknown f hup hnone =>
      have hidle : s.registry.waiting (.component f) = .idle := by
        apply hwaiting.component f
        rw [hup]
        decide
      have hsame : Function.update s.registry.waiting (.component f) .idle =
          s.registry.waiting := by
        rw [← hidle]
        exact Function.update_eq_self ..
      have hdown := down_registered (f := f) (w := .idle) hs (fun y _ => rfl) fun y hy hdesc =>
        hnone y hy (by rw [hdesc])
      rwa [hsame] at hdown
  | deinitWaits _ => exact hs
  | @deinitDone f x hstopping hx _ =>
      refine down_registered hs (fun y hy => (cleared_slots x hy).2) fun y hy hdesc => ?_
      obtain ⟨hne, hsame⟩ := cleared_slots x hy
      rw [hsame] at hy hdesc
      exact hne (hs.stopping f x hx hstopping y hy hdesc).1
  | resetting _ =>
      refine hs.of_slots (fun y hy => ⟨hy, rfl, fun _ => rfl⟩) fun f => ?_
      have hcaller : (.component f : Caller K) ≠ .core := by simp
      exact Function.update_of_ne hcaller .reset s.registry.waiting
  | resetWaits => exact hs
  | resetDone _ _ =>
      refine hs.of_slots (fun y hy => (by cases hy)) fun f => ?_
      have hcaller : (.component f : Caller K) ≠ .core := by simp
      exact Function.update_of_ne hcaller .idle s.registry.waiting
  | refused _ _ => exact ⟨hs.known, hs.stopping⟩
  | @acquired k c x _ _ _ _ _ =>
      refine hs.of_slots (fun y hy => ?_) fun f => rfl
      obtain ⟨hused, hdesc, hacc⟩ := recount_slots s.registry.slots x y
        ((s.registry.slots x).referenceCount + 1)
      exact ⟨hused.symm.trans hy, hdesc, hacc.trans⟩
  | goesOn _ _ _ => exact ⟨hs.known, hs.stopping⟩
  | @released k c ref ret _ _ =>
      refine hs.of_slots (fun y hy => ?_) fun f => rfl
      obtain ⟨hused, hdesc, hacc⟩ := recount_slots s.registry.slots ref.slot y
        ((s.registry.slots ref.slot).referenceCount - 1)
      exact ⟨hused.symm.trans hy, hdesc, hacc.trans⟩

end Registered

/-! ## The references of the calls -/

/-- Every call between its acquire and its release has a reference of its own. -/
structure System.Held (P : Platform) (A : Tables) (s : System K) : Prop where
  held : ∀ k c ref, (s.calls k).ref = some (c, ref) →
    ref ∈ s.registry.outstanding ∧ ref.desc = A.service P c.feature
  distinct : ∀ k k' c c' ref, (s.calls k).ref = some (c, ref) →
    (s.calls k').ref = some (c', ref) → k = k'
  fresh : ∀ ref ∈ s.registry.outstanding, ref.serial < s.registry.serial

section Held

variable {k : K} {st : CallState} {c : Facade} {ref : Holding}

omit [DecidableEq K] in
theorem System.Held.congr (h : s.Held P A) (hcalls : s'.calls = s.calls)
    (houtstanding : s'.registry.outstanding = s.registry.outstanding)
    (hserial : s'.registry.serial = s.registry.serial) : s'.Held P A where
  held := by
    rw [hcalls, houtstanding]
    exact h.held
  distinct := by
    rw [hcalls]
    exact h.distinct
  fresh := by
    rw [houtstanding, hserial]
    exact h.fresh

/-- A call that has no reference after the step. -/
theorem System.Held.drop (h : s.Held P A) (hst : st.ref = none)
    (hkeep : ∀ k' c' ref', k' ≠ k → (s.calls k').ref = some (c', ref') →
      ref' ∈ s'.registry.outstanding)
    (hfresh : ∀ ref' ∈ s'.registry.outstanding, ref'.serial < s'.registry.serial)
    (hcalls : s'.calls = Function.update s.calls k st) : s'.Held P A := by
  have hother : ∀ k' c' ref', (s'.calls k').ref = some (c', ref') →
      k' ≠ k ∧ (s.calls k').ref = some (c', ref') := by
    intro k' c' ref' hk'
    rw [hcalls] at hk'
    have hne : k' ≠ k := by
      rintro rfl
      rw [Function.update_self, hst] at hk'
      cases hk'
    rw [Function.update_of_ne hne] at hk'
    exact ⟨hne, hk'⟩
  refine ⟨fun k' c' ref' hk' => ?_, fun k' k'' c' c'' ref' hk' hk'' => ?_, hfresh⟩
  · obtain ⟨hne, hold⟩ := hother k' c' ref' hk'
    exact ⟨hkeep k' c' ref' hne hold, (h.held k' c' ref' hold).2⟩
  · exact h.distinct k' k'' c' c'' ref' (hother k' c' ref' hk').2 (hother k'' c'' ref' hk'').2

/-- A call that keeps its reference. -/
theorem System.Held.goOn (h : s.Held P A) (hst : st.ref = (s.calls k).ref) :
    (s.setCall k st).Held P A := by
  have hsame : ∀ k', (Function.update s.calls k st k').ref = (s.calls k').ref := by
    intro k'
    by_cases hne : k' = k
    · subst hne
      rw [Function.update_self, hst]
    · rw [Function.update_of_ne hne]
  refine ⟨fun k' c' ref' hk' => ?_, fun k' k'' c' c'' ref' hk' hk'' => ?_, h.fresh⟩
  · exact h.held k' c' ref' ((hsame k').symm.trans hk')
  · exact h.distinct k' k'' c' c'' ref' ((hsame k').symm.trans hk') ((hsame k'').symm.trans hk'')

/-- A call that takes a reference. -/
theorem System.Held.take (h : s.Held P A) (hdesc : ref.desc = A.service P c.feature)
    (hserial : ref.serial = s.registry.serial) {slots : Service.Slots} :
    (({ s with registry := { s.registry with
        slots := slots
        outstanding := ref :: s.registry.outstanding
        serial := s.registry.serial + 1 } } : System K).setCall k (.holding c ref)).Held P A := by
  have hnew : ref ∉ s.registry.outstanding := by
    intro hmem
    have hlt := h.fresh ref hmem
    omega
  have hcases : ∀ k' c' ref',
      (Function.update s.calls k (.holding c ref) k').ref = some (c', ref') →
      (k' = k ∧ c' = c ∧ ref' = ref) ∨ (k' ≠ k ∧ (s.calls k').ref = some (c', ref')) := by
    intro k' c' ref' hk'
    by_cases hne : k' = k
    · subst hne
      rw [Function.update_self] at hk'
      obtain ⟨rfl, rfl⟩ := Prod.mk.inj (Option.some.inj hk')
      exact Or.inl ⟨rfl, rfl, rfl⟩
    · rw [Function.update_of_ne hne] at hk'
      exact Or.inr ⟨hne, hk'⟩
  refine ⟨fun k' c' ref' hk' => ?_, fun k' k'' c' c'' ref' hk' hk'' => ?_, fun ref' hmem => ?_⟩
  · rcases hcases k' c' ref' hk' with ⟨-, rfl, rfl⟩ | ⟨-, hold⟩
    · exact ⟨List.mem_cons_self, hdesc⟩
    · obtain ⟨hmem, hdesc'⟩ := h.held k' c' ref' hold
      exact ⟨List.mem_cons_of_mem _ hmem, hdesc'⟩
  · rcases hcases k' c' ref' hk' with ⟨rfl, -, rfl⟩ | ⟨-, hold⟩
    · rcases hcases k'' c'' ref' hk'' with ⟨rfl, -, -⟩ | ⟨-, hold'⟩
      · rfl
      · exact absurd (h.held k'' c'' ref' hold').1 hnew
    · rcases hcases k'' c'' ref' hk'' with ⟨-, -, rfl⟩ | ⟨-, hold'⟩
      · exact absurd (h.held k' c' ref' hold).1 hnew
      · exact h.distinct k' k'' c' c'' ref' hold hold'
  · have hlt : ref'.serial < s.registry.serial + 1 := by
      rcases List.mem_cons.mp hmem with rfl | hold
      · omega
      · have hlt := h.fresh ref' hold
        omega
    exact hlt

theorem step_held (h : FeatureStep P A s e s') (hregistered : s.Registered P A)
    (hs : s.Held P A) : s'.Held P A := by
  cases h with
  | initialised _ _ _ => exact hs.congr rfl rfl rfl
  | initRefused _ => exact hs
  | deinitialised _ _ _ _ => exact hs.congr rfl rfl rfl
  | closing _ _ _ _ => exact hs.congr rfl rfl rfl
  | deinitUnknown _ _ => exact hs.congr rfl rfl rfl
  | deinitWaits _ => exact hs
  | deinitDone _ _ _ => exact hs.congr rfl rfl rfl
  | resetting _ => exact hs.congr rfl rfl rfl
  | resetWaits => exact hs
  | resetDone _ _ => exact hs.congr rfl rfl rfl
  | refused hnone _ =>
      exact hs.drop rfl (fun k' c' ref' _ hold => (hs.held k' c' ref' hold).1) hs.fresh rfl
  | acquired _ _ hused _ hkey => exact hs.take (hregistered.desc_eq hused hkey).1 rfl
  | goesOn _ hst _ => exact hs.goOn hst
  | @released k c ref ret hk hmem =>
      have href : (s.calls k).ref = some (c, ref) := by
        rw [hk]
        rfl
      refine hs.drop rfl (fun k' c' ref' hne hold => ?_) (fun ref' hmem' => ?_) rfl
      · -- nobody else has the reference that is given back
        have hdiff : ref' ≠ ref := by
          rintro rfl
          exact hne (hs.distinct k' k c' c ref' hold href)
        exact (List.mem_erase_of_ne hdiff).mpr (hs.held k' c' ref' hold).1
      · exact hs.fresh ref' (List.mem_of_mem_erase hmem')

end Held

/-! ## The reference counts -/

/-- The references of a call to a slot. -/
def CallState.refs (x : Fin serviceMaxEntries) (st : CallState) : Nat :=
  if st.ref.map (fun r => r.2.slot) = some x then 1 else 0

/-- The reference counts are numbers of calls. -/
structure System.Counted (s : System K) : Prop where
  finite : ∀ x, (Function.support fun k => (s.calls k).refs x).Finite
  count : ∀ x, (s.registry.slots x).referenceCount = ∑ᶠ k, (s.calls k).refs x

section Counted

variable {k : K} {st : CallState} {c : Facade} {ref : Holding}

theorem refs_of_none (hst : st.ref = none) (x : Fin serviceMaxEntries) : st.refs x = 0 := by
  rw [CallState.refs, hst]
  rfl

theorem refs_of_some (hst : st.ref = some (c, ref)) (x : Fin serviceMaxEntries) :
    st.refs x = if ref.slot = x then 1 else 0 := by
  rw [CallState.refs, hst]
  simp

theorem refs_le (st : CallState) (x : Fin serviceMaxEntries) : st.refs x ≤ 1 := by
  unfold CallState.refs
  split <;> omega

omit [DecidableEq K] in
/-- A step of which the calls take no part. -/
theorem System.Counted.congr (h : s.Counted) (hcalls : s'.calls = s.calls)
    (hcount : ∀ x, (s'.registry.slots x).referenceCount = (s.registry.slots x).referenceCount) :
    s'.Counted where
  finite := by
    rw [hcalls]
    exact h.finite
  count := by
    intro x
    rw [hcalls, hcount]
    exact h.count x

/-- A call moves, and the counts with it. -/
theorem System.Counted.move (h : s.Counted) (hcalls : s'.calls = Function.update s.calls k st)
    (hcount : ∀ x, (s'.registry.slots x).referenceCount + (s.calls k).refs x =
      (s.registry.slots x).referenceCount + st.refs x) : s'.Counted := by
  constructor
  · intro x
    rw [hcalls]
    exact Family.support_update_finite (f := fun _ (st : CallState) => st.refs x) (h.finite x) k st
  · intro x
    have hupdate :=
      Family.finsum_update_add (f := fun _ (st : CallState) => st.refs x) (h.finite x) k st
    have hold := h.count x
    have hnew := hcount x
    rw [hcalls]
    omega

/-- A slot with a new count. -/
theorem recount_count (slots : Service.Slots) (x y : Fin serviceMaxEntries) (n : Nat) :
    (Function.update slots x { slots x with referenceCount := n } y).referenceCount =
      if y = x then n else (slots y).referenceCount := by
  by_cases hyx : y = x
  · subst hyx
    simp
  · simp [hyx]

/-- A slot that loses nothing when it is written. -/
theorem rewrite_count {slots : Service.Slots} {x : Fin serviceMaxEntries}
    {slot : Service.ServiceSlot} (hslot : slot.referenceCount = (slots x).referenceCount)
    (y : Fin serviceMaxEntries) :
    (Function.update slots x slot y).referenceCount = (slots y).referenceCount := by
  by_cases hyx : y = x
  · subst hyx
    rw [Function.update_self, hslot]
  · rw [Function.update_of_ne hyx]

theorem step_counted (h : FeatureStep P A s e s') (hsafe : ReferenceSafe s.registry)
    (hs : s.Counted) : s'.Counted := by
  cases h with
  | initialised _ hfree _ => exact hs.congr rfl (rewrite_count (hsafe.unused _ hfree).1.symm)
  | initRefused _ => exact hs
  | deinitialised _ _ _ hz => exact hs.congr rfl (rewrite_count hz.symm)
  | closing _ _ _ _ => exact hs.congr rfl (rewrite_count rfl)
  | deinitUnknown _ _ => exact hs.congr rfl fun x => rfl
  | deinitWaits _ => exact hs
  | deinitDone _ _ hz => exact hs.congr rfl (rewrite_count hz.symm)
  | resetting _ => exact hs.congr rfl fun x => rfl
  | resetWaits => exact hs
  | resetDone _ hz => exact hs.congr rfl fun x => (hz x).symm
  | refused hnone _ =>
      refine hs.move rfl fun x => ?_
      rw [refs_of_none hnone, refs_of_none rfl]
      rfl
  | @acquired k c x hnone _ _ _ _ =>
      refine hs.move rfl fun y => ?_
      rw [refs_of_none hnone, refs_of_some rfl]
      have hcount := recount_count s.registry.slots x y ((s.registry.slots x).referenceCount + 1)
      refine (congrArg (· + 0) hcount).trans ?_
      by_cases hyx : y = x
      · subst hyx
        simp
      · simp [hyx, Ne.symm hyx]
  | goesOn _ hst _ =>
      refine hs.move rfl fun x => ?_
      rw [CallState.refs, CallState.refs, hst]
      rfl
  | @released k c ref ret hk hmem =>
      have href : (s.calls k).ref = some (c, ref) := by
        rw [hk]
        rfl
      refine hs.move rfl fun y => ?_
      rw [refs_of_some href, refs_of_none rfl]
      have hcount := recount_count s.registry.slots ref.slot y
        ((s.registry.slots ref.slot).referenceCount - 1)
      refine (congrArg (· + _) hcount).trans ?_
      by_cases hyx : y = ref.slot
      · subst hyx
        -- the count is positive, since this call has a reference
        have hpos : 0 < (s.registry.slots ref.slot).referenceCount := by
          rw [hsafe.counted]
          exact List.countP_pos_iff.mpr ⟨ref, hmem, by simp⟩
        rw [if_pos rfl, if_pos rfl]
        omega
      · rw [if_neg hyx, if_neg (Ne.symm hyx)]

end Counted

/-! ## Every run -/

/-- What holds in every state. -/
structure System.Sound (P : Platform) (A : Tables) (s : System K) : Prop where
  waiting : s.Waiting
  registered : s.Registered P A
  held : s.Held P A
  counted : s.Counted

omit [DecidableEq K] in
theorem zero_sound : (System.zero K).Sound P A where
  waiting := ⟨fun _ => rfl, fun _ _ => rfl, fun f hf => (by cases hf), Or.inl rfl⟩
  registered := ⟨fun x hx => (by cases hx), fun f x hx => (by cases hx)⟩
  held := ⟨fun k c ref hk => (by cases hk), fun k k' c c' ref hk => (by cases hk),
    fun ref hmem => (by cases hmem)⟩
  counted := by
    have hzero : ∀ (x : Fin serviceMaxEntries) (k : K), ((System.zero K).calls k).refs x = 0 :=
      fun x k => refs_of_none rfl x
    refine ⟨fun x => Set.finite_empty.subset fun k hk => hk (hzero x k), fun x => ?_⟩
    rw [finsum_eq_zero_of_forall_eq_zero (hzero x)]
    rfl

theorem step_sound (h : next P A s e = some s') (hsafe : ReferenceSafe s.registry)
    (hs : s.Sound P A) : s'.Sound P A := by
  have hcases := next_cases hs.waiting h
  exact ⟨step_waiting hcases hs.waiting, step_registered hcases hsafe hs.waiting hs.registered,
    step_held hcases hs.registered hs.held, step_counted hcases hsafe hs.counted⟩

theorem sound_of_reachable (h : (featureMachine K P A).Reachable s) : s.Sound P A := by
  have hboth : (featureMachine K P A).Reachable s ∧ s.Sound P A := by
    apply h.invariant (I := fun s => (featureMachine K P A).Reachable s ∧ s.Sound P A)
    · intro s hs
      refine ⟨⟨s, [], hs, Machine.Run.nil⟩, ?_⟩
      obtain rfl : s = System.zero K := hs
      exact zero_sound
    · intro u e v hu hstep
      exact ⟨hu.1.step hstep, step_sound hstep (registry_safe hu.1) hu.2⟩
  exact hboth.2

end Features
end AppCore
