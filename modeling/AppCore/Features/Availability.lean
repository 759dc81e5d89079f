/-
  AppCore.Features.Availability

  The features under the framework, which resets the registry while no feature is initialised
  and initialises none while it does: a feature can be called exactly while it is up, and
  neither its `init` nor its `deinit` is refused by the registry.
-/

import AppCore.Features.Calls
import AppCore.Service.Ownership
import Mathlib.Data.Fintype.Card

namespace AppCore
namespace Features

open Service (Holding Slots ReferenceSafe serviceMaxEntries criticalSection findService firstSlot
  sysServiceAcquire sysServiceRegister sysServiceUnregister)

variable {K : Type*} [DecidableEq K] {P : Platform} {A : Tables} {s s' : System K} {e : Event K}
  {f g : Feature} {x y : Fin serviceMaxEntries}

/-- `sys_core.c` resets the registry before `sys_component_start_all` and after
    `sys_component_stop_all`, and that deinitialises every component that has been initialised,
    one whose `stop` fails too. -/
def Contract (s : System K) : Event K → Prop
  | .init _ => s.registry.waiting .core = .idle
  | .reset => ∀ f, s.life f = .down
  | _ => True

/-- The features as the framework uses them. -/
def lifecycleMachine (K : Type*) [DecidableEq K] (P : Platform) (A : Tables) :
    Machine (System K) (Event K) :=
  (featureMachine K P A).restrict fun s e _ => Contract s e

/-- The slots of the features that are up, and of those that stop. -/
structure System.Available (P : Platform) (A : Tables) (s : System K) : Prop where
  opened : ∀ f, s.life f = .up → ∃ x, (s.registry.slots x).used = true ∧
    (s.registry.slots x).desc = A.service P f ∧ (s.registry.slots x).accepting = true
  owned : ∀ f x, s.registry.waiting (.component f) = .unregister f.moduleId f.interfaceId x →
    s.life f = .stopping → (s.registry.slots x).used = true ∧
      (s.registry.slots x).desc = A.service P f
  resetting : s.registry.waiting .core = .reset → ∀ f, s.life f = .down

section Invariant

omit [DecidableEq K] in
/-- Slots that keep what is known of them. -/
theorem System.Available.of_slots (h : s.Available P A) {registry : Service.Registry (Caller K)}
    {calls : K → CallState}
    (hslots : ∀ y, (registry.slots y).used = (s.registry.slots y).used ∧
      (registry.slots y).desc = (s.registry.slots y).desc ∧
      (registry.slots y).accepting = (s.registry.slots y).accepting)
    (hwaiting : registry.waiting = s.registry.waiting) :
    System.Available P A (⟨registry, s.life, calls⟩ : System K) := by
  refine ⟨fun f hf => ?_, fun f x hx hf => ?_, fun hcore => ?_⟩
  · obtain ⟨x, hused, hdesc, hacc⟩ := h.opened f hf
    obtain ⟨hused', hdesc', hacc'⟩ := hslots x
    exact ⟨x, hused'.trans hused, hdesc'.trans hdesc, hacc'.trans hacc⟩
  · rw [hwaiting] at hx
    obtain ⟨hused, hdesc⟩ := h.owned f x hx hf
    obtain ⟨hused', hdesc', -⟩ := hslots x
    exact ⟨hused'.trans hused, hdesc'.trans hdesc⟩
  · rw [hwaiting] at hcore
    exact h.resetting hcore

omit [DecidableEq K] in
/-- While no feature is up or stops, nothing has to be in the registry. -/
theorem available_of_down (hdown : ∀ f, s.life f = .down) : s.Available P A := by
  refine ⟨fun f hf => ?_, fun f x _ hf => ?_, fun _ => hdown⟩
  · rw [hdown f] at hf
    cases hf
  · rw [hdown f] at hf
    cases hf

/-- A feature that writes its own slot goes on in its life. -/
theorem System.Available.write (h : s.Available P A) {slot : Service.ServiceSlot}
    {w : Service.WaitState} {life : Life}
    (hcore : s.registry.waiting .core ≠ .reset)
    (hother : ∀ y, (s.registry.slots y).used = true → y = x →
      (s.registry.slots y).desc = A.service P f)
    (hup : life = .up → slot.used = true ∧ slot.desc = A.service P f ∧ slot.accepting = true)
    (hstopping : life = .stopping → ∀ y, w = .unregister f.moduleId f.interfaceId y →
      y = x ∧ slot.used = true ∧ slot.desc = A.service P f) :
    System.Available P A (⟨{ s.registry with
        slots := Function.update s.registry.slots x slot
        waiting := Function.update s.registry.waiting (.component f) w },
      Function.update s.life f life, s.calls⟩ : System K) := by
  -- the slot of another feature is another slot
  have hne : ∀ g y, g ≠ f → (s.registry.slots y).used = true →
      (s.registry.slots y).desc = A.service P g → y ≠ x := by
    intro g y hgf hused hdesc hyx
    have hkey : A.service P g = A.service P f := hdesc.symm.trans (hother y hused hyx)
    exact hgf (A.service_injective P (by rw [hkey]))
  refine ⟨fun g hg => ?_, fun g y hy hg => ?_, fun hreset => ?_⟩
  · by_cases hgf : g = f
    · subst hgf
      have hlife : life = .up := by simpa using hg
      refine ⟨x, ?_⟩
      simpa using hup hlife
    · have hlife : s.life g = .up := by simpa [Function.update_of_ne hgf] using hg
      obtain ⟨y, hused, hdesc, hacc⟩ := h.opened g hlife
      have hyx := hne g y hgf hused hdesc
      refine ⟨y, ?_⟩
      simpa [Function.update_of_ne hyx] using ⟨hused, hdesc, hacc⟩
  · by_cases hgf : g = f
    · subst hgf
      have hlife : life = .stopping := by simpa using hg
      obtain ⟨rfl, hused, hdesc⟩ := hstopping hlife y (by simpa using hy)
      simpa using ⟨hused, hdesc⟩
    · have hlife : s.life g = .stopping := by simpa [Function.update_of_ne hgf] using hg
      have hcaller : (.component g : Caller K) ≠ .component f := by simpa using hgf
      have hwait : s.registry.waiting (.component g) =
          .unregister g.moduleId g.interfaceId y := by
        simpa [Function.update_of_ne hcaller] using hy
      obtain ⟨hused, hdesc⟩ := h.owned g y hwait hlife
      have hyx := hne g y hgf hused hdesc
      simpa [Function.update_of_ne hyx] using ⟨hused, hdesc⟩
  · have hcaller : (.core : Caller K) ≠ .component f := by simp
    have hsame : s.registry.waiting .core = .reset := by
      simpa [Function.update_of_ne hcaller] using hreset
    exact absurd hsame hcore

omit [DecidableEq K] in
/-- Not while the core resets the registry. -/
theorem System.Available.not_resetting (h : s.Available P A) (hf : s.life f ≠ .down) :
    s.registry.waiting .core ≠ .reset := fun hcore => hf (h.resetting hcore f)

theorem update_waiting_idle {f : Feature} (hidle : s.registry.waiting (.component f) = .idle) :
    Function.update s.registry.waiting (.component f) .idle = s.registry.waiting := by
  rw [← hidle]
  exact Function.update_eq_self ..

theorem step_available (h : FeatureStep P A s e s') (hcontract : Contract s e)
    (hsound : s.Sound P A) (hs : s.Available P A) : s'.Available P A := by
  cases h with
  | @initialised f x hdown hfree _ =>
      have hcore : s.registry.waiting .core ≠ .reset := by
        have hidle : s.registry.waiting .core = .idle := hcontract
        rw [hidle]
        exact Service.WaitState.noConfusion
      have hidle : s.registry.waiting (.component f) = .idle := by
        apply hsound.waiting.component f
        rw [hdown]
        decide
      have hwritten : System.Available P A (⟨{ s.registry with
            slots := Function.update s.registry.slots x ⟨true, true, 0, A.service P f⟩
            waiting := Function.update s.registry.waiting (.component f) .idle },
          Function.update s.life f .up, s.calls⟩ : System K) := by
        refine hs.write hcore (fun y hy hyx => ?_) (fun _ => ⟨rfl, rfl, rfl⟩) fun hlife => ?_
        · rw [hyx, hfree] at hy
          cases hy
        · cases hlife
      rw [update_waiting_idle hidle] at hwritten
      exact hwritten
  | initRefused _ => exact hs
  | @deinitialised f x hup hused hkey _ =>
      refine hs.write (hs.not_resetting (by rw [hup]; decide)) (fun y hy hyx => ?_)
        (fun hlife => (by cases hlife)) fun hlife => (by cases hlife)
      rw [hyx]
      exact (hsound.registered.desc_eq hused hkey).1
  | @closing f x hup hused hkey _ =>
      have hdesc := (hsound.registered.desc_eq hused hkey).1
      refine hs.write (hs.not_resetting (by rw [hup]; decide)) (fun y hy hyx => ?_)
        (fun hlife => (by cases hlife)) fun _ y hy => ?_
      · rw [hyx]
        exact hdesc
      · obtain ⟨-, -, rfl⟩ := Service.WaitState.unregister.inj hy
        exact ⟨rfl, hused, hdesc⟩
  | @deinitUnknown f hup hnone =>
      -- a feature that is up is registered
      obtain ⟨x, hused, hdesc, -⟩ := hs.opened f hup
      exact absurd (by rw [hdesc]) (hnone x hused)
  | deinitWaits _ => exact hs
  | @deinitDone f x hstopping hx _ =>
      refine hs.write (hs.not_resetting (by rw [hstopping]; decide)) (fun y hy hyx => ?_)
        (fun hlife => (by cases hlife)) fun hlife => (by cases hlife)
      rw [hyx]
      exact (hs.owned f x hx hstopping).2
  | resetting _ => exact available_of_down hcontract
  | resetWaits => exact hs
  | resetDone he _ =>
      refine available_of_down ?_
      rcases he with rfl | ⟨-, hcore⟩
      · exact hcontract
      · exact hs.resetting hcore
  | refused _ _ => exact ⟨hs.opened, hs.owned, hs.resetting⟩
  | @acquired k c x _ _ _ _ _ =>
      exact hs.of_slots (fun y => recount_slots s.registry.slots x y _) rfl
  | goesOn _ _ _ => exact ⟨hs.opened, hs.owned, hs.resetting⟩
  | @released k c ref ret _ _ =>
      exact hs.of_slots (fun y => recount_slots s.registry.slots ref.slot y _) rfl

theorem available_of_reachable (h : (lifecycleMachine K P A).Reachable s) :
    (featureMachine K P A).Reachable s ∧ s.Available P A := by
  apply h.invariant (I := fun s => (featureMachine K P A).Reachable s ∧ s.Available P A)
  · intro s hs
    refine ⟨⟨s, [], hs, Machine.Run.nil⟩, ?_⟩
    obtain rfl : s = System.zero K := hs
    exact available_of_down fun f => rfl
  · intro u e v hu hstep
    have hsound := sound_of_reachable hu.1
    exact ⟨hu.1.step hstep.1,
      step_available (next_cases hsound.waiting hstep.1) hstep.2 hsound hu.2⟩

end Invariant

/-! ## What the registry answers -/

section Answers

omit [DecidableEq K] in
/-- A feature that is down is not registered. -/
theorem System.Registered.findService_down (h : s.Registered P A) (hf : s.life f = .down) :
    findService s.registry.slots f.moduleId f.interfaceId = none := by
  cases hfound : findService s.registry.slots f.moduleId f.interfaceId with
  | none => rfl
  | some x =>
      obtain ⟨hused, hkey⟩ := Service.findService_eq_some hfound
      exact absurd hf (h.desc_eq hused hkey).2

/-- The features by number. -/
def Feature.index : Feature → Fin 5
  | .wifi => 0
  | .gps => 1
  | .imu => 2
  | .camera => 3
  | .zlmedia => 4

theorem Feature.index_injective : Function.Injective Feature.index := by
  intro f g h
  revert h
  cases f <;> cases g <;> decide

omit [DecidableEq K] in
/-- Five features do not fill the registry. -/
theorem System.Registered.exists_free (h : s.Registered P A) (hsafe : ReferenceSafe s.registry) :
    ∃ x, firstSlot (fun x => !(s.registry.slots x).used) = some x := by
  apply Option.isSome_iff_exists.mp
  rw [Service.firstSlot_isSome_iff]
  by_contra hfull
  push Not at hfull
  have hused : ∀ x, (s.registry.slots x).used = true := fun x => by simpa using hfull x
  choose feature hdesc _ using fun x => h.known x (hused x)
  have hinjective : Function.Injective fun x => (feature x).index := by
    intro x y hxy
    have hsame : feature x = feature y := Feature.index_injective hxy
    apply hsafe.distinct x y (hused x) (hused y)
    rw [hdesc, hdesc, hsame]
  have hcard := Fintype.card_le_of_injective _ hinjective
  rw [Fintype.card_fin, Fintype.card_fin] at hcard
  exact absurd hcard (by decide)

theorem register_ok {slots : Slots}
    (hnone : findService slots f.moduleId f.interfaceId = none)
    (hfree : firstSlot (fun x => !(slots x).used) = some x) :
    sysServiceRegister (some (A.service P f)) slots =
      (.ok, Function.update slots x ⟨true, true, 0, A.service P f⟩) := by
  have hfound : ¬ (findService slots (A.service P f).moduleId
      (A.service P f).interfaceId).isSome = true := by
    have hnone : findService slots (A.service P f).moduleId (A.service P f).interfaceId = none :=
      hnone
    rw [hnone]
    decide
  simp only [sysServiceRegister, if_neg (A.service_valid P f), if_neg hfound, hfree]

theorem acquire_parameters (f : Feature) :
    ¬ (f.moduleId = 0 ∨ f.interfaceId = 0 ∨ f.abiVersion = 0 ∨ f.opsSize P = 0) := by
  have hvalid := Tables.sample.service_valid P f
  rintro (h | h | h | h)
  · exact hvalid (Or.inl h)
  · exact hvalid (Or.inr (Or.inl h))
  · exact hvalid (Or.inr (Or.inr (Or.inl h)))
  · exact hvalid (Or.inr (Or.inr (Or.inr (Or.inr (Or.inl h)))))

theorem acquire_notFound {slots : Slots}
    (hclosed : ∀ x, findService slots f.moduleId f.interfaceId = some x →
      (slots x).accepting = false) :
    sysServiceAcquire P.sizeMax f.moduleId f.interfaceId f.abiVersion (f.opsSize P) (some {})
      slots = (.notFound, slots, some { ops := 0, internal := none }) := by
  simp only [sysServiceAcquire, if_neg (acquire_parameters f)]
  cases hfound : findService slots f.moduleId f.interfaceId with
  | none => rfl
  | some x => simp only [hclosed x hfound, if_true]

theorem acquire_ok {slots : Slots}
    (hfound : findService slots f.moduleId f.interfaceId = some x)
    (hdesc : (slots x).desc = A.service P f) (hacc : (slots x).accepting = true)
    (hcount : (slots x).referenceCount < P.sizeMax) :
    sysServiceAcquire P.sizeMax f.moduleId f.interfaceId f.abiVersion (f.opsSize P) (some {})
      slots = (.ok, Function.update slots x
        { slots x with referenceCount := (slots x).referenceCount + 1 },
      some { ops := A.address f, internal := some x }) := by
  have habi : ¬ ((slots x).desc.abiVersion ≠ f.abiVersion ∨
      (slots x).desc.opsSize < f.opsSize P) := by
    rw [hdesc]
    rintro (h | h)
    · exact h rfl
    · exact absurd h (Nat.lt_irrefl _)
  have hroom : ¬ (slots x).referenceCount = P.sizeMax := Nat.ne_of_lt hcount
  simp only [sysServiceAcquire, if_neg (acquire_parameters f), hfound, hacc, if_neg habi,
    if_neg hroom, reduceCtorEq, if_false]
  rw [hdesc]
  rfl

end Answers

/-! ## The features of the framework -/

section Features

/-- The `init` of a feature that is down succeeds. -/
theorem init_succeeds (hsound : s.Sound P A) (hsafe : ReferenceSafe s.registry)
    (hf : s.life f = .down) : ∃ t, next P A s (.init f) = some t ∧ t.life f = .up := by
  obtain ⟨x, hfree⟩ := hsound.registered.exists_free hsafe
  have hregister : sysServiceRegister (some (A.service P f)) s.registry.slots = _ :=
    register_ok (hsound.registered.findService_down hf) hfree
  have hidle : s.registry.waiting (.component f) = .idle := by
    apply hsound.waiting.component f
    rw [hf]
    decide
  have hentered : s.enter P (.register (.component f) (some (A.service P f))) =
      some (some .ok, { s with registry := { s.registry with
        slots := Function.update s.registry.slots x ⟨true, true, 0, A.service P f⟩ } }) := by
    rw [System.enter, Service.criticalSection_of_idle (fun _ hwake => by cases hwake) hidle,
      Service.enter, hregister]
    rfl
  refine ⟨({ s with registry := { s.registry with
      slots := Function.update s.registry.slots x ⟨true, true, 0, A.service P f⟩ } } :
    System K).setLife f .up, ?_, Function.update_self ..⟩
  simp only [next, if_pos hf, hentered, Option.map_some, if_true]

/-- A call of a feature that is up gets a reference. -/
theorem call_succeeds {k : K} {c : Facade} (hsound : s.Sound P A)
    (hsafe : ReferenceSafe s.registry) (havailable : s.Available P A)
    (hroom : ∀ x, (s.registry.slots x).referenceCount < P.sizeMax)
    (hk : (s.calls k).ref = none) (hvalid : c.valid = true) (hup : s.life c.feature = .up) :
    ∃ t ref, next P A s (.call k c) = some t ∧ t.calls k = .holding c ref := by
  obtain ⟨x, hused, hdesc, hacc⟩ := havailable.opened c.feature hup
  have hfound : findService s.registry.slots c.feature.moduleId c.feature.interfaceId = some x :=
    Service.ReferenceSafe.findService_registered hsafe ⟨hused, hdesc⟩
  have hacquire := acquire_ok hfound hdesc hacc (hroom x)
  have hentered : s.enter P (c.acquire P k) = some (some .ok, { s with registry := { s.registry with
        slots := Function.update s.registry.slots x { s.registry.slots x with
          referenceCount := (s.registry.slots x).referenceCount + 1 }
        outstanding := ⟨s.registry.serial, x, (s.registry.slots x).desc⟩ :: s.registry.outstanding
        serial := s.registry.serial + 1 } }) := by
    rw [System.enter, Facade.acquire, Service.criticalSection_of_idle
      (fun _ hwake => by cases hwake) (hsound.waiting.facade k), Service.enter, hacquire]
    rfl
  have hnone : ¬ (s.calls k).ref.isSome = true := by
    rw [hk]
    decide
  have hargs : ¬ c.valid = false := by
    rw [hvalid]
    decide
  let ref : Holding := ⟨s.registry.serial, x, (s.registry.slots x).desc⟩
  refine ⟨({ s with registry := { s.registry with
      slots := Function.update s.registry.slots x { s.registry.slots x with
        referenceCount := (s.registry.slots x).referenceCount + 1 }
      outstanding := ref :: s.registry.outstanding
      serial := s.registry.serial + 1 } } : System K).setCall k (.holding c ref), ref, ?_,
    Function.update_self ..⟩
  simp only [next, if_neg hnone, if_neg hargs, hentered]
  rfl

/-- A call of a feature that is down or stops is told so. -/
theorem call_notFound {k : K} {c : Facade} (hsound : s.Sound P A)
    (hk : (s.calls k).ref = none) (hvalid : c.valid = true) (hdown : s.life c.feature ≠ .up) :
    ∃ t, next P A s (.call k c) = some t ∧ t.calls k = .returned c .notFound := by
  have hclosed : ∀ x, findService s.registry.slots c.feature.moduleId c.feature.interfaceId =
      some x → (s.registry.slots x).accepting = false := by
    intro x hfound
    obtain ⟨hused, hkey⟩ := Service.findService_eq_some hfound
    obtain ⟨hdesc, hlife⟩ := hsound.registered.desc_eq hused hkey
    have hstopping : s.life c.feature = .stopping := by
      cases h : s.life c.feature with
      | down => exact absurd h hlife
      | up => exact absurd h hdown
      | stopping => rfl
    obtain ⟨y, hy⟩ := hsound.waiting.stopping c.feature hstopping
    exact (hsound.registered.stopping c.feature y hy hstopping x hused hdesc).2
  have hacquire := acquire_notFound (P := P) hclosed
  have hentered : s.enter P (c.acquire P k) = some (some .notFound, s) := by
    rw [System.enter, Facade.acquire, Service.criticalSection_of_idle
      (fun _ hwake => by cases hwake) (hsound.waiting.facade k), Service.enter, hacquire]
    rfl
  have hnone : ¬ (s.calls k).ref.isSome = true := by
    rw [hk]
    decide
  have hargs : ¬ c.valid = false := by
    rw [hvalid]
    decide
  refine ⟨s.setCall k (.returned c .notFound), ?_, Function.update_self ..⟩
  simp only [next, if_neg hnone, if_neg hargs, hentered]

/-- Under the framework the registry refuses no feature: the registration in an `init` succeeds,
    a `deinit` finds it, and a call with valid arguments is accepted exactly while its feature
    is up; before the `init` and from the `deinit` on it is told that there is no such
    service. -/
theorem feature_available (h : (lifecycleMachine K P A).Reachable s) :
    (∀ f, s.life f = .down → ∃ t, next P A s (.init f) = some t ∧ t.life f = .up) ∧
    (∀ f, s.life f = .up →
      (sysServiceUnregister f.moduleId f.interfaceId s.registry.slots).1 ≠ some .notFound) ∧
    (∀ k c, (s.calls k).ref = none → c.valid = true →
      (∀ x, (s.registry.slots x).referenceCount < P.sizeMax) →
      (s.life c.feature = .up →
        ∃ t ref, next P A s (.call k c) = some t ∧ t.calls k = .holding c ref) ∧
      (s.life c.feature ≠ .up →
        ∃ t, next P A s (.call k c) = some t ∧ t.calls k = .returned c .notFound)) := by
  obtain ⟨hreach, havailable⟩ := available_of_reachable h
  have hsound := sound_of_reachable hreach
  have hsafe := registry_safe hreach
  refine ⟨fun f hf => init_succeeds hsound hsafe hf, fun f hf => ?_, fun k c hk hvalid hroom =>
    ⟨call_succeeds hsound hsafe havailable hroom hk hvalid, call_notFound hsound hk hvalid⟩⟩
  obtain ⟨x, hused, hdesc, -⟩ := havailable.opened f hf
  have hfound : findService s.registry.slots f.moduleId f.interfaceId = some x :=
    Service.ReferenceSafe.findService_registered hsafe ⟨hused, hdesc⟩
  simp only [sysServiceUnregister, hfound, Service.unregisterLoop]
  split
  · intro hret
    cases hret
  · intro hret
    cases hret

/-- One feature is up, and the others are not. -/
theorem feature_available_one :
    ∃ s t u v : System Unit, next .lp64 Tables.sample s (.init .camera) = some t ∧
      t.life .camera = .up ∧
      (∃ ref, next .lp64 Tables.sample s (.call () .wifiDisconnect) = some u ∧
        u.calls () = .holding .wifiDisconnect ref) ∧
      next .lp64 Tables.sample s (.call () .cameraStopStream) = some v ∧
      v.calls () = .returned .cameraStopStream .notFound := by
  have hexec : Machine.exec (next .lp64 Tables.sample) (System.zero Unit) [.init .wifi] =
      some _ := rfl
  have hreach : (lifecycleMachine Unit .lp64 Tables.sample).Reachable _ :=
    ⟨_, _, rfl, Machine.Run.of_exec_along hexec ⟨rfl, fun _ _ => trivial⟩⟩
  obtain ⟨hinit, -, hcall⟩ := feature_available hreach
  have hroom : ∀ x : Fin serviceMaxEntries, (Function.update (fun _ => ({} : Service.ServiceSlot))
      0 ⟨true, true, 0, Tables.sample.service .lp64 .wifi⟩ x).referenceCount <
        Platform.lp64.sizeMax := by
    intro x
    by_cases hx : x = 0
    · subst hx
      decide
    · rw [Function.update_of_ne hx]
      decide
  obtain ⟨t, ht, hup⟩ := hinit .camera rfl
  obtain ⟨u, ref, hu, hheld⟩ := (hcall () .wifiDisconnect rfl rfl hroom).1 rfl
  obtain ⟨v, hv, hnotFound⟩ := (hcall () .cameraStopStream rfl rfl hroom).2 (by decide)
  exact ⟨_, t, u, v, ht, hup, ⟨ref, hu, hheld⟩, hv, hnotFound⟩

end Features

end Features
end AppCore
