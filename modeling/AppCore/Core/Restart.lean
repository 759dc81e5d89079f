/-
  AppCore.Core.Restart

  A failed `sys_core_init` undoes everything and can be repeated.  The bus and the core are
  put together with the service registry and the component table, the four subsystems that
  the entry points start and reset; the application has one thread beside the worker.

  A component pass writes its table in one step, which nothing else reads; what its
  callbacks do to the bus and to the registry are steps of their own.
-/

import AppCore.Component.Balance
import AppCore.Core.Lone
import AppCore.Service.Model

namespace AppCore
namespace Core

open Component (Callbacks Lifecycle LinkSection sysComponentStartAll sysComponentStopAll)
open Event (Bus Thread WorkerLoop CallState)

/-- The component table, and the cycle it belongs to.  Only the table exists in the program. -/
structure Cycle where
  components : Lifecycle
  /-- What the last `sys_thread_create` of `sys_event_bus_start` has returned. -/
  created : SysErr
  /-- What the callbacks return. -/
  results : Callbacks
  /-- The table as `sys_core_init` has found it. -/
  found : Lifecycle
  /-- The callbacks of the cycles before. -/
  past : List (List Component.Call)

/-- The framework, the service registry and the component table, with the application's
    thread and the worker. -/
structure Whole (K : Type*) where
  framework : Framework Unit K
  registry : Service.Registry (Thread (Caller Unit))
  cycle : Cycle
  /-- The entry point has to return from `sys_service_registry_reset`. -/
  resetting : Bool

/-- The atomic steps. -/
inductive WholeAction (K : Type*) where
  /-- The application calls `sys_core_init`. -/
  | init
  /-- The application calls `sys_core_shutdown`. -/
  | shutdown
  /-- A step of the bus; the calls are those of the application. -/
  | bus (a : Event.Action (Caller Unit) K)
  /-- The application calls the registry. -/
  | service (e : Service.Event (Thread (Caller Unit)))
  /-- The entry point is in `sys_service_registry_reset`. -/
  | reset
  /-- The entry point calls `sys_event_bus_start` or `sys_event_bus_stop`. -/
  | busCall (k : K)
  | busReturned (unjoined : Bool)
  /-- `sys_component_start_all`, with the results of its callbacks. -/
  | startAll (results : Callbacks)
  /-- `sys_component_stop_all`. -/
  | stopAll
  /-- The entry point returns. -/
  | finish

/-- The thread that makes a step. -/
def actor {Tid K : Type*} : Event.Action Tid K → Thread Tid
  | .call t _ _ => t
  | .proceed t => t
  | .callbackReturn t _ => t
  | .threadCreate t _ => t
  | .join t _ => t

/-- `pthread_join` returns 0. -/
def Joins {Tid K : Type*} : Event.Action Tid K → Bool
  | .join _ ret => ret = 0
  | _ => true

/-- The application does not reset the registry. -/
def userSection {T : Type*} : Service.Event T → Bool
  | .reset _ => false
  | _ => true

/-- The result of `sys_thread_create`, after a step. -/
def createdAfter {Tid K : Type*} (created : SysErr) : Event.Action Tid K → SysErr
  | .threadCreate _ ret => ret
  | _ => created

section Functions

variable {K : Type*} [DecidableEq K] (sec : LinkSection) (sizeMax : Nat)

/-- Everything before the first call. -/
def Whole.zero (K : Type*) : Whole K where
  framework := Framework.zero Unit K
  registry := Service.Registry.zero
  cycle := ⟨Lifecycle.zero, .ok, Callbacks.failing [] [], Lifecycle.zero, []⟩
  resetting := false

/-- The next cycle begins. -/
def Cycle.next (c : Cycle) : Cycle :=
  { c with
    components := { c.components with calls := [] }
    found := c.components
    past := c.components.calls :: c.past }

/-- `sys_core_init` up to `sys_service_registry_reset`. -/
def Whole.init (w : Whole K) : Whole K :=
  if w.framework.core ≠ .stopped then
    { w with framework := sysCoreInit w.framework mainThread }
  else
    { w with
      framework := sysCoreInit w.framework mainThread
      cycle := w.cycle.next
      resetting := true }

/-- The application's thread can call an entry point. -/
def Whole.atRest (w : Whole K) : Bool :=
  w.registry.waiting mainThread = .idle && w.framework.bus.stack mainThread = [] &&
    w.framework.inUserCode mainThread

/-- The section of `sys_service_registry_reset` that comes next. -/
def Whole.resetSection (w : Whole K) :
    Option (Option SysErr × Service.Registry (Thread (Caller Unit))) :=
  if w.registry.waiting mainThread = .reset then
    Service.criticalSection sizeMax w.registry (.wake mainThread)
  else Service.criticalSection sizeMax w.registry (.reset mainThread)

/-- The component pass of `entry` can return. -/
def Whole.inPass (w : Whole K) (entry : Entry) : Bool :=
  w.registry.waiting mainThread = .idle && w.framework.frame.any fun f => f.entry = entry

/-- One atomic step. -/
def wholeNext (w : Whole K) : WholeAction K → Option (Whole K)
  | .init => if w.atRest = true then some w.init else none
  | .shutdown =>
    if w.atRest = true then some { w with framework := sysCoreShutdown w.framework mainThread }
    else none
  | .bus a =>
    if w.registry.waiting (actor a) = .idle ∧ Joins a = true then
      (busStep w.framework a).map fun s =>
        { w with
          framework := s
          cycle := { w.cycle with created := createdAfter w.cycle.created a } }
    else none
  | .service e =>
    if userSection e = true ∧ w.framework.inUserCode e.thread = true then
      (Service.criticalSection sizeMax w.registry e).map fun r => { w with registry := r.2 }
    else none
  | .reset =>
    if w.resetting = true then
      (w.resetSection sizeMax).map fun r => { w with registry := r.2, resetting := r.1 = none }
    else none
  | .busCall k =>
    if w.resetting = true then none
    else (next w.framework (.busCall k)).map fun s => { w with framework := s }
  | .busReturned unjoined =>
    (next w.framework (.busReturned unjoined)).map fun s =>
      -- the registry is reset after `sys_event_bus_stop`
      { w with framework := s, resetting := s.frame.any fun f => f.point = .finish }
  | .startAll results =>
    if w.inPass .init = true then
      (sysComponentStartAll results sec w.cycle.components).bind fun r =>
        (next w.framework (.componentsReturned r.1)).map fun s =>
          { w with
            framework := s
            cycle := { w.cycle with components := r.2, results := results } }
    else none
  | .stopAll =>
    if w.inPass .shutdown = true then
      let r := sysComponentStopAll w.cycle.results w.cycle.components
      (next w.framework (.componentsReturned r.1)).map fun s =>
        { w with framework := s, cycle := { w.cycle with components := r.2 } }
    else none
  | .finish =>
    if w.resetting = true then none
    else (next w.framework .finish).map fun s => { w with framework := s }

/-- The whole program under all interleavings of the application's thread and the worker. -/
def wholeMachine (K : Type*) [DecidableEq K] (sec : LinkSection) (sizeMax : Nat) :
    Machine (Whole K) (WholeAction K) :=
  Machine.ofNext (fun w => w = Whole.zero K) (wholeNext sec sizeMax)

end Functions

/-! ## The component table -/

/-- What was initialized has been deinitialized, and what was started has been stopped. -/
structure Undone (calls : List Component.Call) : Prop where
  deinitialized : ∀ id, .init id .ok ∈ calls → .deinit id ∈ calls
  stopped : ∀ id, .start id .ok ∈ calls → ∃ ret, .stop id ret ∈ calls

/-- `collect_components` returns before it writes to the table. -/
def Rejected (sec : LinkSection) : Prop :=
  sec.stop < sec.start ∨ (sec.stop - sec.start) % sec.descSize ≠ 0 ∨
    sec.count > Component.componentMaxCount

section Table

variable {sec : LinkSection} {g : Lifecycle} {cb : Callbacks} {ret : SysErr}

theorem Undone.nil : Undone [] := ⟨(fun _ h => nomatch h), (fun _ h => nomatch h)⟩

theorem Undone.of_balanced {calls : List Component.Call} (h : Component.Balanced calls) :
    Undone calls := by
  constructor
  · intro id hid
    have hcount := h.deinit_exact id
    rw [if_pos hid] at hcount
    apply List.count_pos_iff.mp
    omega
  · intro id hid
    have hcount := h.stop_exact id
    rw [if_pos hid] at hcount
    have hpos : 0 < calls.countP (Component.Call.isStop id) := by omega
    obtain ⟨call, hcall, hstop⟩ := List.countP_pos_iff.mp hpos
    cases call with
    | stop i ret =>
        obtain rfl : i = id := of_decide_eq_true hstop
        exact ⟨ret, hcall⟩
    | init i ret => cases hstop
    | start i ret => cases hstop
    | deinit i => cases hstop

theorem collectComponents_rejected (h : Rejected sec) (g : Lifecycle) :
    ∃ ret, ret ≠ .ok ∧ Component.collectComponents sec g = (ret, g) := by
  unfold Component.collectComponents
  by_cases hrange : sec.stop < sec.start ∨ (sec.stop - sec.start) % sec.descSize ≠ 0
  · rw [if_pos hrange]
    exact ⟨.state, by decide, rfl⟩
  · have hcount : sec.count > Component.componentMaxCount := by
      rcases h with h | h | h
      · exact absurd (Or.inl h) hrange
      · exact absurd (Or.inr h) hrange
      · exact h
    rw [if_neg hrange, if_pos hcount]
    exact ⟨.overflow, by decide, rfl⟩

/-- What a cycle has left in the table is overwritten. -/
theorem collectComponents_again (h : ¬ Rejected sec) (hcalls : g.calls = []) :
    Component.collectComponents sec g = Component.collectComponents sec Lifecycle.zero := by
  have hrange : ¬ (sec.stop < sec.start ∨ (sec.stop - sec.start) % sec.descSize ≠ 0) :=
    fun hrange => h (hrange.imp id Or.inl)
  have hcount : ¬ sec.count > Component.componentMaxCount := fun hcount =>
    h (Or.inr (Or.inr hcount))
  simp only [Component.collectComponents, if_neg hrange, if_neg hcount, hcalls]
  rfl

theorem collectComponents_calls (sec : LinkSection) (g : Lifecycle) :
    (Component.collectComponents sec g).2.calls = g.calls := by
  unfold Component.collectComponents
  split
  · rfl
  · split
    · rfl
    · rfl

theorem sysComponentStartAll_rejected (h : Rejected sec) (cb : Callbacks) (g : Lifecycle) :
    ∃ ret, ret ≠ .ok ∧ sysComponentStartAll cb sec g = some (ret, g) := by
  obtain ⟨ret, hret, hcollect⟩ := collectComponents_rejected h g
  refine ⟨ret, hret, ?_⟩
  simp only [sysComponentStartAll, hcollect, if_pos hret]

/-- `sys_component_start_all` does the same as in the first cycle. -/
theorem sysComponentStartAll_again (h : Rejected sec → g = Lifecycle.zero)
    (hcalls : g.calls = []) (cb : Callbacks) :
    sysComponentStartAll cb sec g = sysComponentStartAll cb sec Lifecycle.zero := by
  by_cases hrejected : Rejected sec
  · rw [h hrejected]
  · simp only [sysComponentStartAll, collectComponents_again hrejected hcalls]

/-- A start and, if it has not failed, the stop behind it are a cycle of the table. -/
theorem undone_of_startAll {r : SysErr} {g₁ g₂ : Lifecycle}
    (haccepted : (Component.collectComponents sec Lifecycle.zero).1 = .ok)
    (h : sysComponentStartAll cb sec Lifecycle.zero = some (r, g₁))
    (hlast : (if r = .ok then (sysComponentStopAll cb g₁).2 else g₁) = g₂) :
    Undone g₂.calls := by
  have hzero : ({ Lifecycle.zero with calls := [] } : Lifecycle) = Lifecycle.zero := rfl
  have hcycle : Component.lifecycleRun cb sec Lifecycle.zero = some (r, g₁, g₂) := by
    unfold Component.lifecycleRun
    rw [hzero, h, ← hlast]
    dsimp only
    split
    · rfl
    · rfl
  exact Undone.of_balanced (Component.balanced_of_lifecycleRun haccepted hcycle)

/-- When it fails, it has undone what it did. -/
theorem sysComponentStartAll_undone (h : sysComponentStartAll cb sec Lifecycle.zero = some (ret, g))
    (hret : ret ≠ .ok) : Undone g.calls := by
  by_cases haccepted : (Component.collectComponents sec Lifecycle.zero).1 = .ok
  · exact undone_of_startAll haccepted h (if_neg hret)
  · -- a section that is not accepted calls nothing
    simp only [sysComponentStartAll, if_pos haccepted, Option.some.injEq, Prod.mk.injEq] at h
    obtain ⟨-, rfl⟩ := h
    rw [collectComponents_calls]
    exact Undone.nil

/-- So does `sys_component_stop_all` after a start that has not failed. -/
theorem sysComponentStopAll_undone
    (h : sysComponentStartAll cb sec Lifecycle.zero = some (.ok, g)) :
    Undone (sysComponentStopAll cb g).2.calls := by
  by_cases haccepted : (Component.collectComponents sec Lifecycle.zero).1 = .ok
  · exact undone_of_startAll haccepted h (if_pos rfl)
  · simp only [sysComponentStartAll, if_pos haccepted, Option.some.injEq, Prod.mk.injEq] at h
    exact absurd h.1 haccepted

end Table

/-! ## The registry -/

/-- `sys_service_registry_reset` returns with an empty registry. -/
theorem resetSection_done {K : Type*} {w : Whole K} {sizeMax : Nat} {ret : SysErr}
    {r : Service.Registry (Thread (Caller Unit))}
    (h : w.resetSection sizeMax = some (some ret, r)) : r.slots = fun _ => {} := by
  unfold Whole.resetSection at h
  split at h
  · rename_i hwait
    have h : Service.resume w.registry mainThread = some (some ret, r) := h
    simp only [Service.resume, hwait] at h
    rcases Service.resetLoop_effect w.registry.slots with ⟨heq, -⟩ | ⟨heq, -⟩
    · simp only [heq, Option.some.injEq, Prod.mk.injEq] at h
      cases h.1
    · simp only [heq, Option.some.injEq, Prod.mk.injEq] at h
      obtain ⟨-, rfl⟩ := h
      rfl
  · simp only [Service.criticalSection] at h
    split at h
    · simp only [Service.enter, Service.sysServiceRegistryReset] at h
      rcases Service.resetLoop_effect (fun x => { w.registry.slots x with accepting := false })
        with ⟨heq, -⟩ | ⟨heq, -⟩
      · simp only [heq, Option.some.injEq, Prod.mk.injEq] at h
        cases h.1
      · simp only [heq, Option.some.injEq, Prod.mk.injEq] at h
        obtain ⟨-, rfl⟩ := h
        rfl
    · cases h

/-! ## Where the entry point is -/

/-- The table is as `sys_core_init` has found it. -/
def Cycle.Untouched (c : Cycle) : Prop := c.components = { c.found with calls := [] }

/-- `sys_core_init` is going to return `ret`.  If the worker was created, the component pass
    has done what it does in the first cycle, and otherwise there was none. -/
structure Cycle.Initialized (sec : LinkSection) (c : Cycle) (ret : SysErr) : Prop where
  pass : c.created = .ok →
    sysComponentStartAll c.results sec Lifecycle.zero = some (ret, c.components)
  skipped : c.created ≠ .ok → ret = c.created ∧ c.Untouched

/-- `sys_component_start_all` has succeeded. -/
def Cycle.Started (sec : LinkSection) (c : Cycle) : Prop :=
  sysComponentStartAll c.results sec Lifecycle.zero = some (.ok, c.components)

/-- The call of `sys_event_bus_start` against the result of `sys_thread_create`. -/
def Creates (created : SysErr) : CallState → Prop
  | .starting => True
  | .storing => created = .ok
  | .returned _ ret _ => ret = created
  | _ => False

/-- After the component pass, or without one. -/
def Point.Late {K : Type*} : Point K → Prop
  | .busStop => True
  | .inBusStop _ => True
  | .finish => True
  | _ => False

/-- The cycle while the entry point is at `f`. -/
def Cycle.At {K : Type*} (sec : LinkSection) (c : Cycle) (calls : K → CallState)
    (f : Frame Unit K) : Prop :=
  match f.entry, f.point with
  | .init, .busStart => c.Untouched
  | .init, .inBusStart k => c.Untouched ∧ Creates c.created (calls k)
  | .init, .components => c.Untouched ∧ c.created = .ok
  | .init, _ => c.Initialized sec f.ret
  | .shutdown, .components => c.Started sec
  | .shutdown, _ => Undone c.components.calls

/-- What holds in every state. -/
structure Whole.Sound {K : Type*} (sec : LinkSection) (w : Whole K) : Prop where
  alone : w.framework.Alone
  rejected : Rejected sec → w.cycle.components = Lifecycle.zero
  past : ∀ calls ∈ w.cycle.past, Undone calls
  idle : w.framework.frame = none →
    if w.framework.core = .running then w.cycle.Started sec else Undone w.cycle.components.calls
  pass : ∀ f, w.framework.frame = some f → w.cycle.At sec w.framework.bus.calls f
  reset : ∀ f, w.framework.frame = some f → f.point = .finish →
    ¬ (f.entry = .init ∧ f.ret = .ok) → w.resetting = false → w.registry.slots = fun _ => {}

section Places

variable {K : Type*} {sec : LinkSection} {c : Cycle} {f : Frame Unit K} {ret : SysErr}
  {calls : K → CallState}

theorem Creates.session {created : SysErr} {st : CallState} (h : Creates created st) :
    st.Session := by
  unfold Creates at h
  split at h
  · trivial
  · trivial
  · trivial
  · exact h.elim

theorem Cycle.Untouched.calls_nil (h : c.Untouched) : c.components.calls = [] := by
  rw [show c.components = { c.found with calls := [] } from h]

theorem Cycle.Initialized.started (h : c.Initialized sec .ok) : c.Started sec := by
  apply h.pass
  by_contra hcreated
  exact hcreated (h.skipped hcreated).1.symm

theorem Cycle.Initialized.undone (h : c.Initialized sec ret) (hret : ret ≠ .ok) :
    Undone c.components.calls := by
  by_cases hcreated : c.created = .ok
  · exact sysComponentStartAll_undone (h.pass hcreated) hret
  · rw [(h.skipped hcreated).2.calls_nil]
    exact Undone.nil

theorem Cycle.At.initialized (h : c.At sec calls f) (hentry : f.entry = .init)
    (hlate : f.point.Late) : c.Initialized sec f.ret := by
  unfold Cycle.At at h
  rw [hentry] at h
  generalize f.point = point at h hlate
  cases point with
  | busStart => exact hlate.elim
  | inBusStart k => exact hlate.elim
  | components => exact hlate.elim
  | busStop => exact h
  | inBusStop k => exact h
  | finish => exact h

theorem Cycle.At.undone (h : c.At sec calls f) (hentry : f.entry = .shutdown)
    (hlate : f.point.Late) : Undone c.components.calls := by
  unfold Cycle.At at h
  rw [hentry] at h
  generalize f.point = point at h hlate
  cases point with
  | components => exact hlate.elim
  | busStart => exact h
  | inBusStart k => exact h
  | busStop => exact h
  | inBusStop k => exact h
  | finish => exact h

theorem Cycle.At.of_late (hlate : f.point.Late)
    (hinit : f.entry = .init → c.Initialized sec f.ret)
    (hshutdown : f.entry = .shutdown → Undone c.components.calls) : c.At sec calls f := by
  unfold Cycle.At
  generalize f.entry = entry at hinit hshutdown ⊢
  generalize f.point = point at hlate ⊢
  cases point with
  | busStart => exact hlate.elim
  | inBusStart k => exact hlate.elim
  | components => exact hlate.elim
  | busStop => cases entry <;> first | exact hinit rfl | exact hshutdown rfl
  | inBusStop k => cases entry <;> first | exact hinit rfl | exact hshutdown rfl
  | finish => cases entry <;> first | exact hinit rfl | exact hshutdown rfl

/-- Beside the call of `sys_event_bus_start` the calls do not matter. -/
theorem Cycle.At.of_calls {calls' : K → CallState} (h : c.At sec calls f)
    (hpoint : ∀ k, f.point ≠ .inBusStart k) : c.At sec calls' f := by
  unfold Cycle.At at h ⊢
  generalize f.entry = entry at h ⊢
  generalize f.point = point at h hpoint ⊢
  cases entry with
  | shutdown => cases point <;> exact h
  | init =>
      cases point with
      | inBusStart k => exact absurd rfl (hpoint k)
      | busStart => exact h
      | components => exact h
      | busStop => exact h
      | inBusStop k => exact h
      | finish => exact h

end Places

/-! ## Steps -/

section Steps

variable {K : Type*} [DecidableEq K] {sec : LinkSection} {sizeMax : Nat} {w w' : Whole K}
  {f : Frame Unit K} {s : Framework Unit K}

omit [DecidableEq K] in
theorem lone_of_joins (s : Framework Unit K) {a : Event.Action (Caller Unit) K}
    (h : Joins a = true) : Lone s (.bus a) := by
  cases a with
  | join t ret =>
      have hret : ret = 0 := of_decide_eq_true h
      exact hret
  | call t k call => trivial
  | proceed t => trivial
  | callbackReturn t ret => trivial
  | threadCreate t ret => trivial

/-- Only `sys_event_bus_start` creates a thread. -/
theorem createdAfter_eq (h : w.framework.Alone) {a : Event.Action (Caller Unit) K}
    (hstep : busStep w.framework a = some s) (hno : ∀ k, w.framework.bus.calls k ≠ .starting) :
    createdAfter w.cycle.created a = w.cycle.created := by
  cases a with
  | threadCreate t ret =>
      obtain ⟨b, hb, -⟩ := busStep_next h.sessioned hstep
      have hb : Event.threadCreate w.framework.bus t ret = some b := hb
      obtain ⟨k, hk⟩ := Event.threadCreate_starting hb
      exact absurd hk (hno k)
  | call t k call => rfl
  | proceed t => rfl
  | callbackReturn t ret => rfl
  | join t ret => rfl

/-- A step of the bus on the call of `sys_event_bus_start`. -/
theorem busStep_creates {k : K} {a : Event.Action (Caller Unit) K} (h : w.framework.Alone)
    (hjoins : Joins a = true) (hf : w.framework.frame = some f) (hpoint : f.point = .inBusStart k)
    (hcreates : Creates w.cycle.created (w.framework.bus.calls k))
    (hstep : busStep w.framework a = some s) :
    Creates (createdAfter w.cycle.created a) (s.bus.calls k) := by
  have honly : ∀ k', w.framework.bus.calls k' = .starting ∨ w.framework.bus.calls k' = .storing →
      k' = k := by
    intro k' hk'
    obtain ⟨f', hf', hpoint'⟩ := h.sessioned.threaded.starting k' hk'
    obtain rfl := Option.some.inj (hf.symm.trans hf')
    exact Point.inBusStart.inj (hpoint'.symm.trans hpoint)
  have hstop : ∀ k', ¬ Stopping (w.framework.bus.calls k') := by
    intro k' hk'
    obtain ⟨f', hf', hpoint'⟩ := h.sessioned.threaded.stopping k' hk'
    obtain rfl := Option.some.inj (hf.symm.trans hf')
    rw [hpoint] at hpoint'
    cases hpoint'
  by_cases hstarting : w.framework.bus.calls k = .starting
  · -- only the creation of the worker is possible
    obtain ⟨t, ret, rfl, hcall⟩ := h.starting_step hstarting hstep
    rw [hcall]
    by_cases hret : ret = .ok
    · rw [if_neg (not_not_intro hret)]
      exact hret
    · rw [if_pos hret]
      rfl
  · have hno : ∀ k', w.framework.bus.calls k' ≠ .starting := by
      intro k' hk'
      rw [honly k' (Or.inl hk')] at hk'
      exact hstarting hk'
    rw [createdAfter_eq h hstep hno]
    have hallowed := h.isolates (lone_of_joins w.framework hjoins) hstep
    rcases busStep_session h.sessioned hallowed hstep with hord | ⟨k', hsession⟩
    · rw [hord.calls k hcreates.session]
      exact hcreates
    · cases hsession with
      | created hk' _ _ _ => exact absurd hk' (hno k')
      | failed hk' _ _ _ _ _ => exact absurd hk' (hno k')
      | stored hk' _ _ hcalls =>
          obtain rfl := honly k' (Or.inr hk')
          rw [hk'] at hcreates
          rw [hcalls, Function.update_self]
          exact hcreates.symm
      | joined hk' _ _ _ _ => exact absurd (Or.inl hk') (hstop k')
      | waited hk' _ => exact absurd (Or.inr hk') (hstop k')
      | stopped hk' _ _ _ _ _ _ _ => exact absurd (Or.inr hk') (hstop k')

omit [DecidableEq K] in
/-- The entry point goes on at `f`. -/
theorem Whole.Sound.goes {c : Cycle} {resetting : Bool} (h : w.Sound sec) (halone : s.Alone)
    (hf : s.frame = some f) (hpast : c.past = w.cycle.past)
    (hrejected : Rejected sec → c.components = Lifecycle.zero)
    (hat : c.At sec s.bus.calls f)
    (hreset : f.point = .finish → (f.entry = .init ∧ f.ret = .ok) ∨ resetting = true) :
    ({ w with framework := s, cycle := c, resetting := resetting } : Whole K).Sound sec := by
  refine ⟨halone, hrejected, fun calls hcalls => ?_, fun hnone => ?_, fun f' hf' => ?_,
    fun f' hf' hfinish hfailed hdone => ?_⟩
  · apply h.past
    rw [← hpast]
    exact hcalls
  · exact absurd (hf.symm.trans hnone) (Option.some_ne_none f)
  · obtain rfl := Option.some.inj (hf.symm.trans hf')
    exact hat
  · obtain rfl := Option.some.inj (hf.symm.trans hf')
    rcases hreset hfinish with hok | hwait
    · exact absurd hok hfailed
    · exact absurd (hwait.symm.trans hdone) (by decide)

/-- Nobody is in the way of a call of the application's thread. -/
theorem Whole.free_of_atRest (h : w.atRest = true) :
    w.framework.bus.stack mainThread = [] ∧ w.framework.inUserCode mainThread = true := by
  simp only [Whole.atRest, Bool.and_eq_true, decide_eq_true_eq] at h
  exact ⟨h.1.2, h.2⟩

omit [DecidableEq K] in
theorem Whole.entry_of_inPass {entry : Entry} (hf : w.framework.frame = some f)
    (h : w.inPass entry = true) : f.entry = entry := by
  simp only [Whole.inPass, hf, Option.any_some, Bool.and_eq_true, decide_eq_true_eq] at h
  exact h.2

/-! ### The application calls an entry point -/

omit [DecidableEq K] in
/-- A call of an entry point that is refused. -/
theorem Whole.Sound.refused {returned : Option (Entry × SysErr)} (h : w.Sound sec)
    (halone : ({ w.framework with returned := returned } : Framework Unit K).Alone) :
    ({ w with framework := { w.framework with returned := returned } } : Whole K).Sound sec :=
  ⟨halone, h.rejected, h.past, h.idle, h.pass, h.reset⟩

theorem init_sound (h : w.Sound sec) (hrest : w.atRest = true) : w.init.Sound sec := by
  obtain ⟨hnil, hcode⟩ := Whole.free_of_atRest hrest
  have halone : (sysCoreInit w.framework mainThread).Alone := by
    refine next_alone (a := .init mainThread) h.alone ⟨rfl, hnil⟩ ?_
    simp only [next, if_pos hcode]
  unfold Whole.init
  split
  · rename_i hcore
    rw [sysCoreInit, if_pos hcore] at halone ⊢
    exact h.refused halone
  · rename_i hcore
    have hstopped : w.framework.core = .stopped := not_not.mp hcore
    have hnone := h.alone.sessioned.threaded.idle (Or.inl hstopped)
    have hundone : Undone w.cycle.components.calls := by
      have hidle := h.idle hnone
      rwa [if_neg (by rw [hstopped]; decide)] at hidle
    rw [sysCoreInit, if_neg hcore] at halone ⊢
    -- the record of the cycle before joins the past ones
    refine ⟨halone, fun hrejected => ?_, fun calls hcalls => ?_, fun hnone => ?_, fun f hf => ?_,
      fun f hf hpoint => ?_⟩
    · show ({ w.cycle.components with calls := [] } : Lifecycle) = Lifecycle.zero
      rw [h.rejected hrejected]
      rfl
    · rcases List.mem_cons.mp hcalls with rfl | hcalls
      · exact hundone
      · exact h.past calls hcalls
    · cases hnone
    · obtain rfl := Option.some.inj hf
      exact rfl
    · obtain rfl := Option.some.inj hf
      cases hpoint

theorem shutdown_sound (h : w.Sound sec) (hrest : w.atRest = true) :
    ({ w with framework := sysCoreShutdown w.framework mainThread } : Whole K).Sound sec := by
  obtain ⟨hnil, hcode⟩ := Whole.free_of_atRest hrest
  have halone : (sysCoreShutdown w.framework mainThread).Alone := by
    refine next_alone (a := .shutdown mainThread) h.alone ⟨rfl, hnil⟩ ?_
    simp only [next, if_pos hcode]
  by_cases hcore : w.framework.core ≠ .running
  · rw [sysCoreShutdown, if_pos hcore] at halone ⊢
    exact h.refused halone
  · have hrunning : w.framework.core = .running := not_not.mp hcore
    have hnone := h.alone.sessioned.threaded.idle (Or.inr hrunning)
    have hstarted : w.cycle.Started sec := by
      have hidle := h.idle hnone
      rwa [if_pos hrunning] at hidle
    rw [sysCoreShutdown, if_neg hcore] at halone ⊢
    apply h.goes halone rfl rfl h.rejected
    · exact hstarted
    · intro hfinish
      cases hfinish

/-! ### The bus and the registry -/

theorem bus_sound {a : Event.Action (Caller Unit) K} (h : w.Sound sec) (hjoins : Joins a = true)
    (hstep : busStep w.framework a = some s) :
    ({ w with
      framework := s
      cycle := { w.cycle with created := createdAfter w.cycle.created a } } : Whole K).Sound
        sec := by
  have halone := next_alone h.alone (lone_of_joins w.framework hjoins) hstep
  have hframe : s.frame = w.framework.frame := by
    obtain ⟨b, -, rfl⟩ := busStep_next h.alone.sessioned hstep
    rfl
  have hcore : s.core = w.framework.core := by
    obtain ⟨b, -, rfl⟩ := busStep_next h.alone.sessioned hstep
    rfl
  refine ⟨halone, h.rejected, h.past, fun hnone => ?_, fun f hf => ?_, fun f hf => ?_⟩
  · have hidle := h.idle (hframe.symm.trans hnone)
    rw [← hcore] at hidle
    exact hidle
  · have hf : w.framework.frame = some f := hframe.symm.trans hf
    have hat := h.pass f hf
    by_cases hpoint : ∃ k, f.point = .inBusStart k
    · obtain ⟨k, hpoint⟩ := hpoint
      obtain ⟨hentry, -⟩ := (h.alone.sessioned.stage f hf).at_inBusStart hpoint
      unfold Cycle.At at hat ⊢
      rw [hentry, hpoint] at hat ⊢
      exact ⟨hat.1, busStep_creates h.alone hjoins hf hpoint hat.2 hstep⟩
    · have hpoint : ∀ k, f.point ≠ .inBusStart k := fun k heq => hpoint ⟨k, heq⟩
      have hno : ∀ k, w.framework.bus.calls k ≠ .starting := by
        intro k hk
        obtain ⟨f', hf', hpoint'⟩ := h.alone.sessioned.threaded.starting k (Or.inl hk)
        obtain rfl := Option.some.inj (hf.symm.trans hf')
        exact hpoint k hpoint'
      rw [createdAfter_eq h.alone hstep hno]
      exact hat.of_calls hpoint
  · exact h.reset f (hframe.symm.trans hf)

theorem service_sound {e : Service.Event (Thread (Caller Unit))}
    {r : Service.Registry (Thread (Caller Unit))} (h : w.Sound sec)
    (hcode : w.framework.inUserCode e.thread = true) :
    ({ w with registry := r } : Whole K).Sound sec := by
  refine ⟨h.alone, h.rejected, h.past, h.idle, h.pass, fun f hf hpoint hfailed _ => ?_⟩
  have hstage := h.alone.sessioned.stage f hf
  rw [Frame.Stage, hpoint, if_neg hfailed] at hstage
  -- there is nobody to call the registry
  refine absurd hcode (h.alone.not_inUserCode (hstage.stands.worker.mpr rfl) hf ?_)
  rw [hpoint]
  intro heq
  cases heq

omit [DecidableEq K] in
theorem reset_sound {r : Option SysErr × Service.Registry (Thread (Caller Unit))}
    (h : w.Sound sec) (hsection : w.resetSection sizeMax = some r) :
    ({ w with registry := r.2, resetting := r.1 = none } : Whole K).Sound sec := by
  refine ⟨h.alone, h.rejected, h.past, h.idle, h.pass, fun f hf hpoint hfailed hdone => ?_⟩
  have hdone : r.1 ≠ none := of_decide_eq_false hdone
  obtain ⟨ret, hret⟩ := Option.ne_none_iff_exists'.mp hdone
  have hr : r = (some ret, r.2) := by rw [← hret]
  rw [hr] at hsection
  exact resetSection_done hsection

/-! ### The entry point goes on -/

theorem busCall_sound {k : K} (h : w.Sound sec) (hstep : next w.framework (.busCall k) = some s) :
    ({ w with framework := s } : Whole K).Sound sec := by
  have halone := next_alone (a := .busCall k) h.alone trivial hstep
  cases next_cases hstep with
  | @startCalled f _ b hf hpoint hk hb =>
      obtain ⟨hentry, hshut⟩ := (h.alone.sessioned.stage f hf).at_busStart hpoint
      obtain ⟨-, hstarting, -⟩ := Event.begin_startStage hshut hb
      have hat := h.pass f hf
      apply h.goes halone rfl rfl h.rejected
      · unfold Cycle.At at hat ⊢
        rw [hentry, hpoint] at hat
        -- the worker is still to be created
        have hcreates : Creates w.cycle.created (b.calls k) := by
          rw [hstarting]
          trivial
        dsimp only
        rw [hentry]
        exact ⟨hat, hcreates⟩
      · intro hfinish
        cases hfinish
  | @stopCalled f _ b hf hpoint hk hb =>
      have hat := h.pass f hf
      have hlate : f.point.Late := by
        rw [hpoint]
        trivial
      apply h.goes halone rfl rfl h.rejected
      · exact .of_late trivial (fun hentry => hat.initialized hentry hlate)
          fun hentry => hat.undone hentry hlate
      · intro hfinish
        cases hfinish

theorem busReturned_sound {unjoined : Bool} (h : w.Sound sec)
    (hstep : next w.framework (.busReturned unjoined) = some s) :
    ({ w with framework := s, resetting := s.frame.any fun f => f.point = .finish } :
      Whole K).Sound sec := by
  have halone := next_alone (a := .busReturned unjoined) h.alone trivial hstep
  cases next_cases hstep with
  | @startReturned f k call ret out _ hf hpoint hk =>
      obtain ⟨hentry, -⟩ := (h.alone.sessioned.stage f hf).at_inBusStart hpoint
      obtain ⟨huntouched, hcreates⟩ : w.cycle.Untouched ∧
          Creates w.cycle.created (w.framework.bus.calls k) := by
        have hat := h.pass f hf
        unfold Cycle.At at hat
        rw [hentry, hpoint] at hat
        exact hat
      rw [hk] at hcreates
      have hcreated : ret = w.cycle.created := hcreates
      apply h.goes halone rfl rfl h.rejected
      · by_cases hret : ret = .ok
        · unfold Cycle.At
          dsimp only
          rw [hentry, if_pos hret]
          exact ⟨huntouched, hcreated.symm.trans hret⟩
        · -- without the worker there is no component pass
          have hinit : w.cycle.Initialized sec ret :=
            ⟨fun hok => absurd (hcreated.trans hok) hret, fun _ => ⟨hcreated, huntouched⟩⟩
          refine .of_late ?_ (fun _ => hinit) fun hshutdown => ?_
          · dsimp only
            rw [if_neg hret]
            trivial
          · exact absurd (hentry.symm.trans hshutdown) (by decide)
      · intro hfinish
        dsimp only at hfinish
        split at hfinish
        · cases hfinish
        · cases hfinish
  | @stopReturned f k call ret out _ hf hpoint hk =>
      have hat := h.pass f hf
      have hlate : f.point.Late := by
        rw [hpoint]
        trivial
      apply h.goes halone rfl rfl h.rejected
      · refine .of_late trivial (fun hentry => ?_) fun hentry => hat.undone hentry hlate
        have hentry : f.entry = .init := hentry
        have hinit := hat.initialized hentry hlate
        dsimp only
        rw [hentry]
        exact hinit
      · -- the reset of the registry comes next
        intro _
        exact Or.inr (by simp)

theorem startAll_sound {results : Callbacks} {ret : SysErr} {g : Lifecycle} (h : w.Sound sec)
    (hpass : w.inPass .init = true)
    (hrun : sysComponentStartAll results sec w.cycle.components = some (ret, g))
    (hstep : next w.framework (.componentsReturned ret) = some s) :
    ({ w with
      framework := s
      cycle := { w.cycle with components := g, results := results } } : Whole K).Sound sec := by
  have halone := next_alone (a := .componentsReturned ret) h.alone trivial hstep
  cases next_cases hstep with
  | @passReturned f _ hf hpoint hlen =>
      have hentry : f.entry = .init := Whole.entry_of_inPass hf hpass
      obtain ⟨huntouched, hcreated⟩ : w.cycle.Untouched ∧ w.cycle.created = .ok := by
        have hat := h.pass f hf
        unfold Cycle.At at hat
        rw [hentry, hpoint] at hat
        exact hat
      rw [sysComponentStartAll_again h.rejected huntouched.calls_nil] at hrun
      have hinit : ({ w.cycle with components := g, results := results } : Cycle).Initialized sec
          ret := ⟨fun _ => hrun, fun hne => absurd hcreated hne⟩
      apply h.goes halone rfl
      · rfl
      · intro hrejected
        obtain ⟨r, -, heq⟩ := sysComponentStartAll_rejected hrejected results Lifecycle.zero
        obtain ⟨-, rfl⟩ := Prod.mk.inj (Option.some.inj (heq.symm.trans hrun))
        rfl
      · refine .of_late ?_ (fun _ => hinit) fun hshutdown => ?_
        · dsimp only
          split
          · trivial
          · trivial
        · exact absurd (hentry.symm.trans hshutdown) (by decide)
      · intro hfinish
        by_cases hok : f.entry = .init ∧ ret = .ok
        · exact Or.inl hok
        · -- a pass that has failed is followed by `sys_event_bus_stop`
          dsimp only at hfinish
          rw [if_neg hok] at hfinish
          cases hfinish

theorem stopAll_sound {ret : SysErr} {g : Lifecycle} (h : w.Sound sec)
    (hpass : w.inPass .shutdown = true)
    (hrun : sysComponentStopAll w.cycle.results w.cycle.components = (ret, g))
    (hstep : next w.framework (.componentsReturned ret) = some s) :
    ({ w with framework := s, cycle := { w.cycle with components := g } } : Whole K).Sound
      sec := by
  have halone := next_alone (a := .componentsReturned ret) h.alone trivial hstep
  cases next_cases hstep with
  | @passReturned f _ hf hpoint hlen =>
      have hentry : f.entry = .shutdown := Whole.entry_of_inPass hf hpass
      have hstarted : w.cycle.Started sec := by
        have hat := h.pass f hf
        unfold Cycle.At at hat
        rw [hentry, hpoint] at hat
        exact hat
      have hundone : Undone g.calls := by
        have hstop := sysComponentStopAll_undone hstarted
        rw [hrun] at hstop
        exact hstop
      have hgoes : ¬ (f.entry = .init ∧ ret = .ok) := by
        rintro ⟨hinit, -⟩
        exact absurd (hentry.symm.trans hinit) (by decide)
      apply h.goes halone rfl
      · rfl
      · -- a start that rejects the section does not succeed
        intro hrejected
        obtain ⟨r, hr, heq⟩ :=
          sysComponentStartAll_rejected hrejected w.cycle.results Lifecycle.zero
        exact absurd (Prod.mk.inj (Option.some.inj (heq.symm.trans hstarted))).1 hr
      · refine .of_late ?_ (fun hinit => ?_) fun _ => hundone
        · dsimp only
          rw [if_neg hgoes]
          trivial
        · exact absurd (hentry.symm.trans hinit) (by decide)
      · intro hfinish
        dsimp only at hfinish
        rw [if_neg hgoes] at hfinish
        cases hfinish

theorem finish_sound (h : w.Sound sec) (hstep : next w.framework .finish = some s) :
    ({ w with framework := s } : Whole K).Sound sec := by
  have halone := next_alone (a := .finish) h.alone trivial hstep
  cases next_cases hstep with
  | @finished f hf hpoint =>
      have hat := h.pass f hf
      have hlate : f.point.Late := by
        rw [hpoint]
        trivial
      refine ⟨halone, h.rejected, h.past, fun _ => ?_, (fun f' hf' => nomatch hf'),
        fun f' hf' => nomatch hf'⟩
      dsimp only
      by_cases hok : f.entry = .init ∧ f.ret = .ok
      · rw [if_pos hok, if_pos rfl]
        have hinit := hat.initialized hok.1 hlate
        rw [hok.2] at hinit
        exact hinit.started
      · rw [if_neg hok, if_neg (by decide)]
        cases hentry : f.entry with
        | init =>
            apply (hat.initialized hentry hlate).undone
            exact fun hret => hok ⟨hentry, hret⟩
        | shutdown => exact hat.undone hentry hlate

/-- Every step. -/
theorem wholeNext_sound {a : WholeAction K} (h : w.Sound sec)
    (hstep : wholeNext sec sizeMax w a = some w') : w'.Sound sec := by
  cases a with
  | init =>
      simp only [wholeNext] at hstep
      split at hstep
      · rename_i hrest
        obtain rfl := Option.some.inj hstep
        exact init_sound h hrest
      · cases hstep
  | shutdown =>
      simp only [wholeNext] at hstep
      split at hstep
      · rename_i hrest
        obtain rfl := Option.some.inj hstep
        exact shutdown_sound h hrest
      · cases hstep
  | bus a =>
      simp only [wholeNext] at hstep
      split at hstep
      · rename_i hcan
        obtain ⟨s, hs, rfl⟩ := Option.map_eq_some_iff.mp hstep
        exact bus_sound h hcan.2 hs
      · cases hstep
  | service e =>
      simp only [wholeNext] at hstep
      split at hstep
      · rename_i hcan
        obtain ⟨r, -, rfl⟩ := Option.map_eq_some_iff.mp hstep
        exact service_sound h hcan.2
      · cases hstep
  | reset =>
      simp only [wholeNext] at hstep
      split at hstep
      · obtain ⟨r, hr, rfl⟩ := Option.map_eq_some_iff.mp hstep
        exact reset_sound h hr
      · cases hstep
  | busCall k =>
      simp only [wholeNext] at hstep
      split at hstep
      · cases hstep
      · obtain ⟨s, hs, rfl⟩ := Option.map_eq_some_iff.mp hstep
        exact busCall_sound h hs
  | busReturned unjoined =>
      obtain ⟨s, hs, rfl⟩ := Option.map_eq_some_iff.mp hstep
      exact busReturned_sound h hs
  | startAll results =>
      simp only [wholeNext] at hstep
      split at hstep
      · rename_i hpass
        obtain ⟨⟨ret, g⟩, hrun, hstep⟩ := Option.bind_eq_some_iff.mp hstep
        obtain ⟨s, hs, rfl⟩ := Option.map_eq_some_iff.mp hstep
        exact startAll_sound h hpass hrun hs
      · cases hstep
  | stopAll =>
      simp only [wholeNext] at hstep
      split at hstep
      · rename_i hpass
        obtain ⟨s, hs, rfl⟩ := Option.map_eq_some_iff.mp hstep
        exact stopAll_sound h hpass rfl hs
      · cases hstep
  | finish =>
      simp only [wholeNext] at hstep
      split at hstep
      · cases hstep
      · obtain ⟨s, hs, rfl⟩ := Option.map_eq_some_iff.mp hstep
        exact finish_sound h hs

/-! ## Runs -/

omit [DecidableEq K] in
theorem zero_sound : (Whole.zero K).Sound sec :=
  ⟨zero_alone, fun _ => rfl, (fun _ hcalls => nomatch hcalls), fun _ => Undone.nil,
    (fun _ hf => nomatch hf), (fun _ hf => nomatch hf)⟩

theorem sound_of_reachable (h : (wholeMachine K sec sizeMax).Reachable w) : w.Sound sec := by
  refine h.invariant (I := fun w => w.Sound sec) ?_ fun u a v hu hstep => ?_
  · rintro w rfl
    exact zero_sound
  · exact wholeNext_sound hu hstep

/-- What a failed `sys_core_init` leaves. -/
structure Whole.Clean (w : Whole K) : Prop where
  core : w.framework.core = .stopped ∧ w.framework.frame = none
  components : ∀ calls ∈ w.cycle.components.calls :: w.cycle.past, Undone calls
  accepting : w.framework.bus.globals.accepting = false
  worker : w.framework.NoWorker
  subscribers : w.framework.bus.globals.subscribers = []
  queue : w.framework.bus.globals.queueCount = 0
  registry : w.registry.slots = fun _ => {}

/-- A failed `sys_core_init` undoes everything, and every call does what the first one does:
    with the worker, `sys_component_start_all` on the table before the first call, and without
    it nothing. -/
theorem failed_init_undone (h : (wholeMachine K sec sizeMax).Reachable w)
    (hf : w.framework.frame = some f) (hentry : f.entry = .init)
    (hstep : wholeNext sec sizeMax w .finish = some w') :
    w'.framework.returned = some (.init, f.ret) ∧ w'.cycle.Initialized sec f.ret ∧
      (f.ret ≠ .ok → w'.Clean) := by
  have hs := sound_of_reachable h
  have hs' := wholeNext_sound hs hstep
  simp only [wholeNext] at hstep
  split at hstep
  · cases hstep
  rename_i hreset
  obtain ⟨s, hfinish, rfl⟩ := Option.map_eq_some_iff.mp hstep
  cases next_cases hfinish with
  | @finished f' hf' hpoint =>
      obtain rfl := Option.some.inj (hf.symm.trans hf')
      have hlate : f.point.Late := by
        rw [hpoint]
        trivial
      have hinit := (hs.pass f hf).initialized hentry hlate
      refine ⟨by rw [hentry], hinit, fun hret => ?_⟩
      -- the bus was shut when the entry point came to its end
      have hfailed : ¬ (f.entry = .init ∧ f.ret = .ok) := fun hok => hret hok.2
      have hshut : w.framework.bus.Shut := by
        have hstage := hs.alone.sessioned.stage f hf
        rwa [Frame.Stage, hpoint, if_neg hfailed] at hstage
      have hqueue := hs.alone.sessioned.sound.shaped.queueOk.queueCount_eq_zero hshut.queued
      refine ⟨⟨if_neg hfailed, rfl⟩, fun calls hcalls => ?_, hshut.stands.accepting,
        ⟨hshut.stands.worker.mpr rfl, hs.alone.sessioned.sole⟩, hshut.subscribers, hqueue,
        hs.reset f hf hpoint hfailed (by simpa using hreset)⟩
      rcases List.mem_cons.mp hcalls with rfl | hcalls
      · exact hinit.undone hret
      · exact hs'.past calls hcalls

end Steps

/-- The second component fails to start, after its callbacks have registered a service and
    subscribed to an event. -/
def failedStartRun : List (WholeAction Nat) :=
  [.init, .reset, .busCall 0, .bus (.threadCreate mainThread .ok), .bus (.proceed mainThread),
    .busReturned false, .bus (.call mainThread 1 (.subscribe 7 5 0 true true)),
    .service (.register mainThread (some (.sample 1 1))),
    .startAll (Callbacks.failing [] [2]), .busCall 2, .bus (.proceed .worker),
    .bus (.join mainThread 0), .bus (.proceed mainThread), .busReturned false, .reset]

/-- A component that depends on another one. -/
def twoComponents : LinkSection :=
  .ofList [.core 2 Component.policyRequired [1], .core 1 Component.policyRequired []]

theorem failed_init_undone_start :
    ∃ w : Whole Nat, w.framework.returned = some (.init, .generic) ∧ w.Clean ∧
      w.cycle.components.calls = [.init 1 .ok, .init 2 .ok, .start 1 .ok, .start 2 .generic,
        .stop 1 .ok, .deinit 2, .deinit 1] := by
  obtain ⟨w, f, w', hexec, hf, hentry, hret, hstep, hcalls⟩ : ∃ w f w',
      Machine.exec (wholeNext twoComponents 100) (Whole.zero Nat) failedStartRun = some w ∧
        w.framework.frame = some f ∧ f.entry = .init ∧ f.ret = .generic ∧
        wholeNext twoComponents 100 w .finish = some w' ∧
        w'.cycle.components.calls = [.init 1 .ok, .init 2 .ok, .start 1 .ok, .start 2 .generic,
          .stop 1 .ok, .deinit 2, .deinit 1] :=
    ⟨_, _, _, rfl, rfl, rfl, rfl, rfl, rfl⟩
  have hreach : (wholeMachine Nat twoComponents 100).Reachable w :=
    ⟨_, _, rfl, Machine.Run.of_exec hexec⟩
  obtain ⟨hreturned, -, hclean⟩ := failed_init_undone hreach hf hentry hstep
  rw [hret] at hreturned hclean
  exact ⟨w', hreturned, hclean (by decide), hcalls⟩

/-- What `sys_component_get_status` shows of the states. -/
def Cycle.states (c : Cycle) : List (UInt32 × Component.ComponentState) :=
  c.components.components.map fun desc => (desc.id, (c.components.runtime desc.id).state)

/-- The first `sys_core_init` cannot create the worker. -/
def failedCreationRun : List (WholeAction Nat) :=
  [.init, .reset, .busCall 0, .bus (.threadCreate mainThread .noMemory), .busReturned false,
    .busCall 1, .busReturned false, .reset]

/-- The second one cannot. -/
def laterFailedCreationRun : List (WholeAction Nat) :=
  [.init, .reset, .busCall 0, .bus (.threadCreate mainThread .ok), .bus (.proceed mainThread),
    .busReturned false, .startAll (Callbacks.failing [] []), .finish,
    .shutdown, .stopAll, .busCall 1, .bus (.proceed .worker), .bus (.join mainThread 0),
    .bus (.proceed mainThread), .busReturned false, .reset, .finish,
    .init, .reset, .busCall 2, .bus (.threadCreate mainThread .noMemory), .busReturned false,
    .busCall 3, .busReturned false, .reset]

/-- Without the worker there is no component pass: the states are those of the cycle before. -/
theorem failed_creation_keeps_states :
    ¬ ∀ w₁ w₂ : Whole Nat, (wholeMachine Nat twoComponents 100).Reachable w₁ →
      (wholeMachine Nat twoComponents 100).Reachable w₂ →
      ∀ f₁ f₂, w₁.framework.frame = some f₁ → w₂.framework.frame = some f₂ →
        f₁.entry = .init → f₂.entry = .init → f₁.point = .finish → f₂.point = .finish →
        w₁.cycle.created = w₂.cycle.created → w₁.cycle.results = w₂.cycle.results →
        w₁.cycle.states = w₂.cycle.states := by
  intro hclaim
  obtain ⟨w₁, f₁, hexec₁, hf₁, hentry₁, hpoint₁, hcreated₁, hresults₁, hstates₁⟩ : ∃ w f,
      Machine.exec (wholeNext twoComponents 100) (Whole.zero Nat) failedCreationRun = some w ∧
        w.framework.frame = some f ∧ f.entry = .init ∧ f.point = .finish ∧
        w.cycle.created = .noMemory ∧ w.cycle.results = Callbacks.failing [] [] ∧
        w.cycle.states = [] := ⟨_, _, rfl, rfl, rfl, rfl, rfl, rfl, rfl⟩
  obtain ⟨w₂, f₂, hexec₂, hf₂, hentry₂, hpoint₂, hcreated₂, hresults₂, hstates₂⟩ : ∃ w f,
      Machine.exec (wholeNext twoComponents 100) (Whole.zero Nat) laterFailedCreationRun =
          some w ∧
        w.framework.frame = some f ∧ f.entry = .init ∧ f.point = .finish ∧
        w.cycle.created = .noMemory ∧ w.cycle.results = Callbacks.failing [] [] ∧
        w.cycle.states = [(2, .stopped), (1, .stopped)] :=
    ⟨_, _, rfl, rfl, rfl, rfl, rfl, rfl, rfl⟩
  have hsame := hclaim w₁ w₂ ⟨_, _, rfl, Machine.Run.of_exec hexec₁⟩
    ⟨_, _, rfl, Machine.Run.of_exec hexec₂⟩ f₁ f₂ hf₁ hf₂ hentry₁ hentry₂ hpoint₁ hpoint₂
    (hcreated₁.trans hcreated₂.symm) (hresults₁.trans hresults₂.symm)
  rw [hstates₁, hstates₂] at hsame
  cases hsame

end Core
end AppCore
