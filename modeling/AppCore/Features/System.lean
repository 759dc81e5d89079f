/-
  AppCore.Features.System

  The features, the calls of their operations and the registry between them, one critical
  section at a time.  Each feature is initialised and deinitialised by the framework, calls of
  any number of threads are in any stage, and the core resets the registry.
-/

import AppCore.Features.Model
import AppCore.Service.Sections

namespace AppCore
namespace Features

open Service (Registry Holding closedSlots criticalSection)

/-- Who calls the registry. -/
inductive Caller (K : Type*) where
  /-- An inline function of a header. -/
  | facade (k : K)
  /-- `init` and `deinit` of a feature. -/
  | component (f : Feature)
  /-- `sys_core_init` and `sys_core_shutdown`. -/
  | core
deriving DecidableEq, Repr

/-- Where a call of an inline function is. -/
inductive CallState where
  | idle
  /-- It has its reference and is about to look at the operation. -/
  | holding (c : Facade) (ref : Holding)
  /-- In the operation. -/
  | running (c : Facade) (ref : Holding)
  /-- About to release its reference. -/
  | releasing (c : Facade) (ref : Holding) (ret : SysErr)
  | returned (c : Facade) (ret : SysErr)
deriving DecidableEq, Repr

/-- The call and the reference it has. -/
def CallState.ref : CallState → Option (Facade × Holding)
  | .holding c ref => some (c, ref)
  | .running c ref => some (c, ref)
  | .releasing c ref _ => some (c, ref)
  | _ => none

/-- The life of a feature between its `init` and its `deinit`. -/
inductive Life where
  | down
  | up
  /-- In the wait of its `deinit`. -/
  | stopping
deriving DecidableEq, Repr

/-- The registry, the features and the calls. -/
structure System (K : Type*) where
  registry : Registry (Caller K)
  life : Feature → Life
  calls : K → CallState

/-- The atomic steps. -/
inductive Event (K : Type*) where
  | init (f : Feature)
  | deinit (f : Feature)
  /-- The wait in the `deinit` of a feature returns. -/
  | deinitWake (f : Feature)
  /-- `sys_service_registry_reset`. -/
  | reset
  | resetWake
  | call (k : K) (c : Facade)
  /-- A call goes on from its acquire to the operation. -/
  | operate (k : K)
  | operationReturns (k : K) (ret : SysErr)
  | release (k : K)
deriving DecidableEq, Repr

/-- The system before the first call. -/
def System.zero (K : Type*) : System K where
  registry := Registry.zero
  life := fun _ => .down
  calls := fun _ => .idle

section Step

variable {K : Type*} [DecidableEq K] (P : Platform) (A : Tables)

def System.setCall (s : System K) (k : K) (st : CallState) : System K :=
  { s with calls := Function.update s.calls k st }

def System.setLife (s : System K) (f : Feature) (life : Life) : System K :=
  { s with life := Function.update s.life f life }

/-- A critical section of the registry, with the code it returns. -/
def System.enter (s : System K) (e : Service.Event (Caller K)) :
    Option (Option SysErr × System K) :=
  (criticalSection P.sizeMax s.registry e).map fun (ret, registry) =>
    (ret, { s with registry := registry })

/-- The acquire of a call. -/
def Facade.acquire (c : Facade) (k : K) : Service.Event (Caller K) :=
  .acquire (.facade k) c.feature.moduleId c.feature.interfaceId c.feature.abiVersion
    (c.feature.opsSize P) (some {})

/-- One atomic step. -/
def next (s : System K) : Event K → Option (System K)
  | .init f =>
    if s.life f = .down then
      (s.enter P (.register (.component f) (some (A.service P f)))).map fun (ret, s) =>
        if ret = some .ok then s.setLife f .up else s
    else none
  | .deinit f =>
    if s.life f = .up then
      (s.enter P (.unregister (.component f) f.moduleId f.interfaceId)).map fun (ret, s) =>
        s.setLife f (if ret = none then .stopping else .down)
    else none
  | .deinitWake f =>
    if s.life f = .stopping then
      (s.enter P (.wake (.component f))).map fun (ret, s) =>
        if ret = none then s else s.setLife f .down
    else none
  | .reset => (s.enter P (.reset .core)).map (·.2)
  | .resetWake => (s.enter P (.wake .core)).map (·.2)
  | .call k c =>
    if (s.calls k).ref.isSome then none
    else if c.valid = false then some (s.setCall k (.returned c .invalidParam))
    else
      match s.enter P (c.acquire P k) with
      | some (some .ok, s) =>
        s.registry.outstanding.head?.map fun ref => s.setCall k (.holding c ref)
      | some (some ret, s) => some (s.setCall k (.returned c ret))
      | _ => none
  | .operate k =>
    match s.calls k with
    | .holding c ref =>
      if A.defined c.operation = false then some (s.setCall k (.releasing c ref .notSupported))
      else some (s.setCall k (.running c ref))
    | _ => none
  | .operationReturns k ret =>
    match s.calls k with
    | .running c ref => some (s.setCall k (.releasing c ref (c.answer ret)))
    | _ => none
  | .release k =>
    match s.calls k with
    | .releasing c ref ret =>
      (s.enter P (.release (.facade k) ref)).map fun (_, s) => s.setCall k (.returned c ret)
    | _ => none

/-- The features under all interleavings. -/
def featureMachine (K : Type*) [DecidableEq K] (P : Platform) (A : Tables) :
    Machine (System K) (Event K) :=
  Machine.ofNext (fun s => s = System.zero K) (next P A)

end Step

/-! ## What a step does -/

section Cases

variable {K : Type*} [DecidableEq K] {P : Platform} {A : Tables}

/-- What a step finds, and the system it leaves. -/
inductive FeatureStep (P : Platform) (A : Tables) (s : System K) : Event K → System K → Prop
  | initialised {f x} : s.life f = .down → (s.registry.slots x).used = false →
      (∀ y, (s.registry.slots y).used = true →
        (s.registry.slots y).desc.key ≠ (A.service P f).key) →
      FeatureStep P A s (.init f) (({ s with registry := { s.registry with
          slots := Function.update s.registry.slots x ⟨true, true, 0, A.service P f⟩ } } :
        System K).setLife f .up)
  | initRefused {f} : s.life f = .down → FeatureStep P A s (.init f) s
  | deinitialised {f x} : s.life f = .up → (s.registry.slots x).used = true →
      (s.registry.slots x).desc.key = (A.service P f).key →
      (s.registry.slots x).referenceCount = 0 →
      FeatureStep P A s (.deinit f) (({ s with registry := { s.registry with
          slots := Function.update s.registry.slots x {}
          waiting := Function.update s.registry.waiting (.component f) .idle } } :
        System K).setLife f .down)
  /-- Calls of its operations are still going on. -/
  | closing {f x} : s.life f = .up → (s.registry.slots x).used = true →
      (s.registry.slots x).desc.key = (A.service P f).key →
      (s.registry.slots x).referenceCount ≠ 0 →
      FeatureStep P A s (.deinit f) (({ s with registry := { s.registry with
          slots := Function.update s.registry.slots x
            { s.registry.slots x with accepting := false }
          waiting := Function.update s.registry.waiting (.component f)
            (.unregister f.moduleId f.interfaceId x) } } : System K).setLife f .stopping)
  /-- The registration has been reset. -/
  | deinitUnknown {f} : s.life f = .up →
      (∀ y, (s.registry.slots y).used = true →
        (s.registry.slots y).desc.key ≠ (A.service P f).key) →
      FeatureStep P A s (.deinit f) (s.setLife f .down)
  | deinitWaits {f} : s.life f = .stopping → FeatureStep P A s (.deinitWake f) s
  | deinitDone {f x} : s.life f = .stopping →
      s.registry.waiting (.component f) = .unregister f.moduleId f.interfaceId x →
      (s.registry.slots x).referenceCount = 0 →
      FeatureStep P A s (.deinitWake f) (({ s with registry := { s.registry with
          slots := Function.update s.registry.slots x {}
          waiting := Function.update s.registry.waiting (.component f) .idle } } :
        System K).setLife f .down)
  | resetting : (∃ y, (s.registry.slots y).referenceCount ≠ 0) →
      FeatureStep P A s .reset { s with registry := { s.registry with
        slots := closedSlots s.registry.slots
        waiting := Function.update s.registry.waiting .core .reset } }
  | resetWaits : FeatureStep P A s .resetWake s
  | resetDone {e} : e = .reset ∨ (e = .resetWake ∧ s.registry.waiting .core = .reset) →
      (∀ y, (s.registry.slots y).referenceCount = 0) →
      FeatureStep P A s e { s with registry := { s.registry with
        slots := fun _ => {}
        waiting := Function.update s.registry.waiting .core .idle } }
  /-- The arguments are refused, or the registry refuses the acquire. -/
  | refused {k c ret} : (s.calls k).ref = none → ret ≠ .ok →
      FeatureStep P A s (.call k c) (s.setCall k (.returned c ret))
  | acquired {k c x} : (s.calls k).ref = none → c.valid = true →
      (s.registry.slots x).used = true → (s.registry.slots x).accepting = true →
      (s.registry.slots x).desc.key = (A.service P c.feature).key →
      FeatureStep P A s (.call k c) (({ s with registry := { s.registry with
          slots := Function.update s.registry.slots x { s.registry.slots x with
            referenceCount := (s.registry.slots x).referenceCount + 1 }
          outstanding := ⟨s.registry.serial, x, (s.registry.slots x).desc⟩ ::
            s.registry.outstanding
          serial := s.registry.serial + 1 } } : System K).setCall k
        (.holding c ⟨s.registry.serial, x, (s.registry.slots x).desc⟩))
  /-- A call that keeps its reference goes on. -/
  | goesOn {k e st} : (s.calls k).ref ≠ none → st.ref = (s.calls k).ref →
      (e = .operate k ∨ ∃ ret, e = .operationReturns k ret) →
      FeatureStep P A s e (s.setCall k st)
  | released {k c ref ret} : s.calls k = .releasing c ref ret → ref ∈ s.registry.outstanding →
      FeatureStep P A s (.release k) (({ s with registry := { s.registry with
          slots := Function.update s.registry.slots ref.slot { s.registry.slots ref.slot with
            referenceCount := (s.registry.slots ref.slot).referenceCount - 1 }
          outstanding := s.registry.outstanding.erase ref } } : System K).setCall k
        (.returned c ret))

/-- Who waits, and for what. -/
structure System.Waiting (s : System K) : Prop where
  facade : ∀ k, s.registry.waiting (.facade k) = .idle
  component : ∀ f, s.life f ≠ .stopping → s.registry.waiting (.component f) = .idle
  stopping : ∀ f, s.life f = .stopping → ∃ x,
    s.registry.waiting (.component f) = .unregister f.moduleId f.interfaceId x
  core : s.registry.waiting .core = .idle ∨ s.registry.waiting .core = .reset

variable {s s' : System K} {ret : Option SysErr}

theorem enter_eq_some {e : Service.Event (Caller K)} (h : s.enter P e = some (ret, s')) :
    ∃ registry, criticalSection P.sizeMax s.registry e = some (ret, registry) ∧
      s' = { s with registry := registry } := by
  obtain ⟨⟨ret, registry⟩, hsection, heq⟩ := Option.map_eq_some_iff.mp h
  obtain ⟨rfl, rfl⟩ := Prod.mk.inj heq
  exact ⟨registry, hsection, rfl⟩

theorem init_cases {f : Feature} (h : next P A s (.init f) = some s') :
    FeatureStep P A s (.init f) s' := by
  obtain ⟨hdown, hentered⟩ := Option.ite_none_right_eq_some.mp h
  obtain ⟨⟨ret, u⟩, henter, rfl⟩ := Option.map_eq_some_iff.mp hentered
  obtain ⟨registry, hsection, rfl⟩ := enter_eq_some henter
  rcases Service.register_section hsection with ⟨x, hfree, hnew, rfl, rfl⟩ | ⟨hne, rfl⟩
  · exact .initialised hdown hfree hnew
  · dsimp only
    rw [if_neg hne]
    exact .initRefused hdown

theorem deinit_cases {f : Feature} (h : next P A s (.deinit f) = some s') :
    FeatureStep P A s (.deinit f) s' := by
  obtain ⟨hup, hentered⟩ := Option.ite_none_right_eq_some.mp h
  obtain ⟨⟨ret, u⟩, henter, rfl⟩ := Option.map_eq_some_iff.mp hentered
  obtain ⟨registry, hsection, rfl⟩ := enter_eq_some henter
  rcases Service.unregister_section hsection with ⟨x, hused, hkey, hcases⟩ | ⟨hnone, rfl, rfl⟩
  · rcases hcases with ⟨hz, rfl, rfl⟩ | ⟨hne, rfl, rfl⟩
    · exact .deinitialised hup hused hkey hz
    · exact .closing hup hused hkey hne
  · exact .deinitUnknown hup hnone

theorem deinitWake_cases {f : Feature} (hwait : s.Waiting)
    (h : next P A s (.deinitWake f) = some s') : FeatureStep P A s (.deinitWake f) s' := by
  obtain ⟨hstopping, hentered⟩ := Option.ite_none_right_eq_some.mp h
  obtain ⟨⟨ret, u⟩, henter, rfl⟩ := Option.map_eq_some_iff.mp hentered
  obtain ⟨registry, hsection, rfl⟩ := enter_eq_some henter
  obtain ⟨x, hx⟩ := hwait.stopping f hstopping
  rcases Service.wake_unregister_section hx hsection with ⟨hz, rfl, rfl⟩ | ⟨-, rfl, rfl⟩
  · exact .deinitDone hstopping hx hz
  · exact .deinitWaits hstopping

theorem reset_cases (h : next P A s .reset = some s') : FeatureStep P A s .reset s' := by
  obtain ⟨⟨ret, u⟩, henter, rfl⟩ := Option.map_eq_some_iff.mp h
  obtain ⟨registry, hsection, rfl⟩ := enter_eq_some henter
  rcases Service.reset_section hsection with ⟨hpos, rfl⟩ | ⟨hz, rfl⟩
  · exact .resetting hpos
  · exact .resetDone (Or.inl rfl) hz

theorem resetWake_cases (hwait : s.Waiting) (h : next P A s .resetWake = some s') :
    FeatureStep P A s .resetWake s' := by
  obtain ⟨⟨ret, u⟩, henter, rfl⟩ := Option.map_eq_some_iff.mp h
  obtain ⟨registry, hsection, rfl⟩ := enter_eq_some henter
  rcases hwait.core with hidle | hreset
  · rw [Service.wake_idle_section hidle] at hsection
    cases hsection
  · rcases Service.wake_reset_section hreset hsection with rfl | ⟨hz, rfl⟩
    · exact .resetWaits
    · exact .resetDone (Or.inr ⟨rfl, hreset⟩) hz

theorem call_cases {k : K} {c : Facade} (h : next P A s (.call k c) = some s') :
    FeatureStep P A s (.call k c) s' := by
  unfold next at h
  dsimp only at h
  split at h
  · cases h
  rename_i hrest
  have hrest : (s.calls k).ref = none := by simpa using hrest
  split at h
  · obtain rfl := Option.some.inj h
    exact .refused hrest SysErr.noConfusion
  rename_i hvalid
  have hvalid : c.valid = true := by simpa using hvalid
  split at h
  · rename_i u henter
    obtain ⟨registry, hsection, rfl⟩ := enter_eq_some henter
    rcases Service.acquire_section hsection with
      ⟨x, hused, hacc, hkey, -, rfl⟩ | ⟨⟨err, herr, hne⟩, -⟩
    · obtain ⟨ref, href, rfl⟩ := Option.map_eq_some_iff.mp h
      obtain rfl := Option.some.inj href
      exact .acquired hrest hvalid hused hacc hkey
    · exact absurd (Option.some.inj herr).symm hne
  · rename_i ret u hne henter
    obtain rfl := Option.some.inj h
    obtain ⟨registry, hsection, rfl⟩ := enter_eq_some henter
    rcases Service.acquire_section hsection with ⟨x, -, -, -, hok, -⟩ | ⟨⟨err, herr, herrne⟩, rfl⟩
    · exact absurd (Option.some.inj hok) hne
    · obtain rfl := Option.some.inj herr
      exact .refused hrest herrne
  · cases h

theorem operate_cases {k : K} (h : next P A s (.operate k) = some s') :
    FeatureStep P A s (.operate k) s' := by
  unfold next at h
  dsimp only at h
  split at h
  · rename_i c ref hk
    have href : (s.calls k).ref = some (c, ref) := by
      rw [hk]
      rfl
    have hsome : (s.calls k).ref ≠ none := by
      rw [href]
      exact Option.some_ne_none _
    split at h
    · obtain rfl := Option.some.inj h
      exact .goesOn hsome href.symm (Or.inl rfl)
    · obtain rfl := Option.some.inj h
      exact .goesOn hsome href.symm (Or.inl rfl)
  · cases h

theorem operationReturns_cases {k : K} {ret : SysErr}
    (h : next P A s (.operationReturns k ret) = some s') :
    FeatureStep P A s (.operationReturns k ret) s' := by
  unfold next at h
  dsimp only at h
  split at h
  · rename_i c ref hk
    have href : (s.calls k).ref = some (c, ref) := by
      rw [hk]
      rfl
    have hsome : (s.calls k).ref ≠ none := by
      rw [href]
      exact Option.some_ne_none _
    obtain rfl := Option.some.inj h
    exact .goesOn hsome href.symm (Or.inr ⟨ret, rfl⟩)
  · cases h

theorem release_cases {k : K} (h : next P A s (.release k) = some s') :
    FeatureStep P A s (.release k) s' := by
  unfold next at h
  dsimp only at h
  split at h
  · rename_i c ref ret hk
    obtain ⟨⟨ret', u⟩, henter, rfl⟩ := Option.map_eq_some_iff.mp h
    obtain ⟨registry, hsection, rfl⟩ := enter_eq_some henter
    obtain ⟨hmem, rfl⟩ := Service.release_section hsection
    exact .released hk hmem
  · cases h

theorem next_cases {e : Event K} (hwait : s.Waiting) (h : next P A s e = some s') :
    FeatureStep P A s e s' := by
  cases e with
  | init f => exact init_cases h
  | deinit f => exact deinit_cases h
  | deinitWake f => exact deinitWake_cases hwait h
  | reset => exact reset_cases h
  | resetWake => exact resetWake_cases hwait h
  | call k c => exact call_cases h
  | operate k => exact operate_cases h
  | operationReturns k ret => exact operationReturns_cases h
  | release k => exact release_cases h

end Cases

end Features
end AppCore
