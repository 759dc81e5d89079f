/-
  AppCore.Camera.Shutdown

  The camera when its `deinit` has returned.  Its service waits for every call in flight,
  but a start that is publishing its event when `camera_component_stop` looks at the state
  is in nobody's way: the component stop returns `SYS_ERR_BUSY`, the framework goes on to
  `deinit`, and the start ends `RUNNING`.
-/

import AppCore.Camera.Rollback
import AppCore.Lib.Family

namespace AppCore
namespace Camera

open Channel Service

variable {T C : Type*} {P : Platform}

/-! ## The references of the service -/

/-- The references of the camera's service a call has. -/
def CallState.references : CallState C → Nat
  | .idle => 0
  | _ => 1

theorem CallState.references_eq_one {st : CallState C} (h : st ≠ .idle) : st.references = 1 := by
  cases st with
  | idle => exact absurd rfl h
  | _ => rfl

/-- A call that is past its first section. -/
def CallState.Past : CallState C → Prop
  | .idle => False
  | .entered _ => False
  | _ => True

theorem CallState.Past.ne_idle {st : CallState C} (h : st.Past) : st ≠ .idle := by
  rintro rfl
  exact h

theorem CallState.Past.ne_entered {st : CallState C} (h : st.Past) (request : Request) :
    st ≠ .entered request := by
  rintro rfl
  exact h

theorem CallState.Active.past {st : CallState C} (h : st.Active) : st.Past := by
  cases st with
  | idle => exact h
  | entered request => exact h
  | _ => trivial

/-- The slot counts the calls of the threads, and is in use until `deinit` has returned.  The
    shutting down thread is in a call only while it is in `camera_component_stop`. -/
structure System.Staged (s : System T C) : Prop where
  finite : (Function.support fun t => (s.calls (.thread t)).references).Finite
  counted : s.slot.referenceCount = ∑ᶠ t, (s.calls (.thread t)).references
  used : s.shutdown ≠ .done → s.slot.used = true
  unused : s.shutdown = .done → s.slot.used = false ∧ s.slot.referenceCount = 0
  shutdownCall : s.shutdown ≠ .stopping → s.calls .shutdown = .idle

section Staged

variable {s s' : System T C} {k : Caller T} {e : Event T C}

theorem System.Fresh.staged (h : s.Fresh) : s.Staged := by
  have hnone : (fun t => (s.calls (.thread t)).references) = fun _ => 0 := by
    rw [h.calls]
    rfl
  refine ⟨?_, ?_, fun _ => h.used, fun hdone => ?_, fun _ => ?_⟩
  · rw [hnone, Function.support_fun_zero]
    exact Set.finite_empty
  · rw [h.referenceCount, hnone, finsum_zero]
  · rw [h.shutdown] at hdone
    cases hdone
  · rw [h.calls]

/-- A thread that is in a call has one of the references. -/
theorem System.Staged.pos (h : s.Staged) {t : T} (ht : s.calls (.thread t) ≠ .idle) :
    0 < s.slot.referenceCount := by
  have hle := single_le_finsum t h.finite fun _ => Nat.zero_le _
  rw [CallState.references_eq_one ht, ← h.counted] at hle
  exact hle

/-- Without references nobody is in a call. -/
theorem System.Staged.idle (h : s.Staged) (hzero : s.slot.referenceCount = 0) (t : T) :
    s.calls (.thread t) = .idle := by
  by_contra hne
  have hpos := h.pos hne
  omega

variable [DecidableEq T]

/-- What one step does to the calls, to the slot and to the stage of the shutdown. -/
inductive Accounts (s s' : System T C) : Prop
  /-- A section of a call. -/
  | calls {k st} : s.calls k ≠ .idle → st ≠ .idle → s'.calls = Function.update s.calls k st →
      s'.slot = s.slot → s'.shutdown = s.shutdown → Accounts s s'
  | acquires {t st} : s.calls (.thread t) = .idle → st ≠ .idle → s.slot.used = true →
      s'.calls = Function.update s.calls (.thread t) st →
      s'.slot = { s.slot with referenceCount := s.slot.referenceCount + 1 } →
      s'.shutdown = s.shutdown → Accounts s s'
  | releases {t} : s.calls (.thread t) ≠ .idle →
      s'.calls = Function.update s.calls (.thread t) .idle →
      s'.slot = { s.slot with referenceCount := s.slot.referenceCount - 1 } →
      s'.shutdown = s.shutdown → Accounts s s'
  /-- `camera_component_stop` is called or returns. -/
  | stops {st} : s.shutdown ≠ .done → s'.shutdown ≠ .done →
      (s'.shutdown ≠ .stopping → st = .idle) → s'.calls = Function.update s.calls .shutdown st →
      s'.slot = s.slot → Accounts s s'
  /-- `sys_service_unregister` waits. -/
  | waits : s.shutdown ≠ .stopping → s'.shutdown = .unregistering → s'.calls = s.calls →
      s'.slot.used = true → s'.slot.referenceCount = s.slot.referenceCount → Accounts s s'
  /-- `sys_service_unregister` has cleared the slot. -/
  | clears : s.shutdown ≠ .stopping → s'.shutdown = .done → s'.calls = s.calls →
      s.slot.referenceCount = 0 → s'.slot = {} → Accounts s s'
  /-- None of them changes. -/
  | same : s'.calls = s.calls → s'.slot = s.slot → s'.shutdown = s.shutdown → Accounts s s'

/-- The references of the threads after one of them has moved. -/
theorem references_update (calls : Caller T → CallState C) (t : T) (st : CallState C) :
    (fun t' => (Function.update calls (.thread t) st (.thread t')).references) =
      fun t' => (Function.update (fun t => calls (.thread t)) t st t').references := by
  have hinjective : Function.Injective (Caller.thread : T → Caller T) :=
    fun _ _ h => Caller.thread.inj h
  have heq := Function.update_comp_eq_of_injective calls hinjective t st
  funext t'
  rw [← show _ = Function.update (fun t => calls (.thread t)) t st t' from congrFun heq t']
  rfl

/-- A call that goes on keeps its reference. -/
theorem references_keep {st : CallState C} (hk : s.calls k ≠ .idle) (hst : st ≠ .idle) :
    (fun t => (Function.update s.calls k st (.thread t)).references) =
      fun t => (s.calls (.thread t)).references := by
  funext t
  by_cases hkt : .thread t = k
  · rw [← hkt, Function.update_self, hkt, CallState.references_eq_one hst,
      CallState.references_eq_one hk]
  · rw [Function.update_of_ne hkt]

/-- Every step keeps the books. -/
theorem Accounts.staged (h : s.Staged) (hacc : Accounts s s') : s'.Staged := by
  cases hacc with
  | @calls k st hk hst hcalls hslot hshutdown =>
      have hkeep : (fun t => (s'.calls (.thread t)).references) =
          fun t => (s.calls (.thread t)).references := by
        rw [hcalls]
        exact references_keep hk hst
      refine ⟨?_, ?_, ?_, ?_, fun hne => ?_⟩
      · rw [hkeep]
        exact h.finite
      · rw [hslot, hkeep]
        exact h.counted
      · rw [hslot, hshutdown]
        exact h.used
      · rw [hslot, hshutdown]
        exact h.unused
      · rw [hshutdown] at hne
        have hidle := h.shutdownCall hne
        have hother : Caller.shutdown ≠ k := by
          rintro rfl
          exact hk hidle
        rw [hcalls, Function.update_of_ne hother]
        exact hidle
  | @acquires t st ht hst hused hcalls hslot hshutdown =>
      -- the count and the references of the threads go up together
      have hmoved := references_update s.calls t st
      have hsum := Family.finsum_update_add (f := fun _ st => CallState.references st)
        h.finite t st
      rw [ht, CallState.references_eq_one hst] at hsum
      refine ⟨?_, ?_, fun _ => ?_, fun hdone => ?_, fun hne => ?_⟩
      · rw [hcalls, hmoved]
        exact Family.support_update_finite (f := fun _ st => CallState.references st) h.finite t st
      · rw [hcalls, hslot, hmoved, h.counted]
        exact hsum.symm
      · rw [hslot]
        exact hused
      · rw [hshutdown] at hdone
        rw [(h.unused hdone).1] at hused
        cases hused
      · rw [hshutdown] at hne
        have hother : Caller.shutdown ≠ .thread t := nofun
        rw [hcalls, Function.update_of_ne hother]
        exact h.shutdownCall hne
  | @releases t ht hcalls hslot hshutdown =>
      -- and down together; the thread has a reference, so that the count is not 0
      have hmoved := references_update s.calls t .idle
      have hsum := Family.finsum_update_add (f := fun _ st => CallState.references st)
        h.finite t .idle
      rw [CallState.references_eq_one ht, ← h.counted] at hsum
      have hzero : (CallState.idle : CallState C).references = 0 := rfl
      refine ⟨?_, ?_, ?_, fun hdone => ?_, fun hne => ?_⟩
      · rw [hcalls, hmoved]
        exact Family.support_update_finite (f := fun _ st => CallState.references st) h.finite t _
      · rw [hcalls, hslot, hmoved]
        show s.slot.referenceCount - 1 = _
        omega
      · rw [hslot, hshutdown]
        exact h.used
      · rw [hshutdown] at hdone
        rw [hslot]
        obtain ⟨hunused, hcount⟩ := h.unused hdone
        refine ⟨hunused, ?_⟩
        show s.slot.referenceCount - 1 = 0
        rw [hcount]
      · rw [hshutdown] at hne
        have hother : Caller.shutdown ≠ .thread t := nofun
        rw [hcalls, Function.update_of_ne hother]
        exact h.shutdownCall hne
  | @stops st hold hnew hidle hcalls hslot =>
      have hthreads : (fun t => (s'.calls (.thread t)).references) =
          fun t => (s.calls (.thread t)).references := by
        funext t
        have hne : Caller.thread t ≠ .shutdown := nofun
        rw [hcalls, Function.update_of_ne hne]
      refine ⟨?_, ?_, fun _ => ?_, fun hdone => absurd hdone hnew, fun hne => ?_⟩
      · rw [hthreads]
        exact h.finite
      · rw [hslot, hthreads]
        exact h.counted
      · rw [hslot]
        exact h.used hold
      · rw [hcalls, Function.update_self]
        exact hidle hne
  | waits hold hnew hcalls hused hcount =>
      refine ⟨?_, ?_, fun _ => hused, fun hdone => ?_, fun _ => ?_⟩
      · rw [hcalls]
        exact h.finite
      · rw [hcount, hcalls]
        exact h.counted
      · rw [hnew] at hdone
        cases hdone
      · rw [hcalls]
        exact h.shutdownCall hold
  | clears hold hnew hcalls hzero hslot =>
      -- nobody has a reference when the slot is cleared
      refine ⟨?_, ?_, fun hne => absurd hnew hne, fun _ => ?_, fun _ => ?_⟩
      · rw [hcalls]
        exact h.finite
      · rw [hslot, hcalls, ← h.counted]
        exact hzero.symm
      · rw [hslot]
        exact ⟨rfl, rfl⟩
      · rw [hcalls]
        exact h.shutdownCall hold
  | same hcalls hslot hshutdown =>
      refine ⟨?_, ?_, ?_, ?_, ?_⟩
      · rw [hcalls]
        exact h.finite
      · rw [hslot, hcalls]
        exact h.counted
      · rw [hslot, hshutdown]
        exact h.used
      · rw [hslot, hshutdown]
        exact h.unused
      · rw [hshutdown, hcalls]
        exact h.shutdownCall

/-- A section of a call. -/
theorem section_accounts {o : Option (CallState C × Globals C)}
    (hcall : ∀ r, o = some r → s.calls k ≠ .idle ∧ r.1.Past)
    (hnext : o.map (s.after k) = some s') : Accounts s s' := by
  obtain ⟨r, hr, rfl⟩ := Option.map_eq_some_iff.mp hnext
  obtain ⟨hk, hst⟩ := hcall r hr
  exact .calls hk hst.ne_idle rfl rfl rfl

end Staged

/-! ## No section of a call ends it -/

section Sections

variable {g : Globals C} {st : CallState C} {r : CallState C × Globals C}

theorem startSection_call {env : CreateEnv} (h : startSection P env g st = some r) :
    (∃ config, st = .entered (.start config)) ∧ r.1.Past := by
  unfold startSection at h
  split at h
  · rename_i config
    refine ⟨⟨config, rfl⟩, ?_⟩
    split at h
    all_goals
      obtain rfl := Option.some.inj h
      trivial
  · cases h

theorem stopSection_call (h : stopSection g st = some r) :
    st = .entered .stop ∧ r.1.Past := by
  unfold stopSection at h
  split at h
  · refine ⟨rfl, ?_⟩
    split at h
    all_goals
      obtain rfl := Option.some.inj h
      trivial
  · cases h

/-- A publication leaves the state as it is. -/
theorem publish_call {subscribers : Option (List C)} (h : publish subscribers g st = some r) :
    r.1.Past ∧ r.2.state = g.state := by
  unfold publish at h
  split at h
  · obtain rfl := Option.some.inj h
    exact ⟨trivial, rfl⟩
  · obtain rfl := Option.some.inj h
    exact ⟨trivial, rfl⟩
  · cases h

theorem callbackReturned_call {ret : SysErr} {st' : CallState C}
    (h : callbackReturned ret st = some st') : st'.Past := by
  unfold callbackReturned at h
  split at h
  · obtain rfl := Option.some.inj h
    trivial
  · obtain rfl := Option.some.inj h
    trivial
  · cases h

theorem wake_call {ret : Int} (h : wake ret g st = some r) :
    r.1.Past ∧ r.2.state = g.state := by
  unfold wake at h
  split at h
  · split at h
    all_goals
      obtain rfl := Option.some.inj h
      exact ⟨trivial, rfl⟩
  · cases h

theorem releaseChannel_state (g : Globals C) : (g.releaseChannel P).state = g.state := by
  unfold Globals.releaseChannel
  split
  · rfl
  split
  · rfl
  dsimp only
  split
  · rfl
  · rfl

theorem closeChannel_state (g : Globals C) : g.closeChannel.state = g.state := by
  unfold Globals.closeChannel
  split
  · rfl
  · rfl

theorem destroyPool_state (g : Globals C) : g.destroyPool.2.state = g.state := by
  unfold Globals.destroyPool
  split
  · rfl
  split
  · rfl
  · rfl

/-- A teardown ends stopped or in an error. -/
theorem Teardown.state_ne_running (t : Teardown) (g : Globals C) : t.state g ≠ .running := by
  unfold Teardown.state
  split
  · split
    · intro heq
      cases heq
    · intro heq
      cases heq
  · split
    · intro heq
      cases heq
    · intro heq
      cases heq

/-- Where a section of a teardown leads, and the state it leaves. -/
theorem teardownSection_result {t : Teardown} {event : CameraStreamEvent} {stage : Stage C}
    (h : teardownSection P t event g stage = some r) :
    r.1.Past ∧ (r.2.state = .running → g.state = .running) := by
  cases stage with
  | mark =>
      obtain rfl := Option.some.inj h
      refine ⟨trivial, fun heq => ?_⟩
      cases heq
  | silence =>
      obtain rfl := Option.some.inj h
      exact ⟨trivial, id⟩
  | requestStop =>
      obtain rfl := Option.some.inj h
      exact ⟨trivial, id⟩
  | close =>
      obtain rfl := Option.some.inj h
      exact ⟨trivial, fun heq => closeChannel_state g ▸ heq⟩
  | join =>
      simp only [teardownSection] at h
      split at h
      · obtain rfl := Option.some.inj h
        exact ⟨trivial, id⟩
      split at h
      · obtain rfl := Option.some.inj h
        exact ⟨trivial, id⟩
      · cases h
  | joinFailed ret =>
      cases t with
      | rollback ret' =>
          obtain rfl := Option.some.inj h
          exact ⟨trivial, id⟩
      | stop =>
          obtain rfl := Option.some.inj h
          refine ⟨trivial, fun heq => ?_⟩
          cases heq
  | publish => cases h
  | notify pending firstError =>
      cases pending with
      | nil =>
          obtain rfl := Option.some.inj h
          exact ⟨trivial, id⟩
      | cons c rest => cases h
  | release eventRet =>
      obtain rfl := Option.some.inj h
      exact ⟨trivial, fun heq => releaseChannel_state g ▸ heq⟩
  | wait eventRet =>
      simp only [teardownSection] at h
      split at h
      · obtain rfl := Option.some.inj h
        exact ⟨trivial, id⟩
      split at h
      all_goals
        obtain rfl := Option.some.inj h
        exact ⟨trivial, id⟩
  | waiting eventRet => cases h
  | destroy eventRet =>
      obtain rfl := Option.some.inj h
      exact ⟨trivial, fun heq => destroyPool_state g ▸ heq⟩
  | settle eventRet poolRet =>
      obtain rfl := Option.some.inj h
      exact ⟨trivial, fun heq => absurd heq (t.state_ne_running g)⟩

/-- The section with which a start sets `RUNNING`. -/
def CallState.Completes : CallState C → Prop
  | .starting _ [] .ok => True
  | _ => False

/-- Only the end of a start that nobody has rejected sets `RUNNING`. -/
theorem proceed_result (h : proceed P g st = some r) :
    r.1.Past ∧ (r.2.state = .running → g.state = .running ∨ st.Completes) := by
  unfold proceed at h
  split at h
  · rename_i event firstError
    split at h
    · obtain rfl := Option.some.inj h
      exact ⟨trivial, Or.inl⟩
    · rename_i hok
      obtain rfl := Option.some.inj h
      have hfirst : firstError = .ok := not_not.mp hok
      refine ⟨trivial, fun _ => Or.inr ?_⟩
      rw [hfirst]
      trivial
  · obtain ⟨hpast, hstate⟩ := teardownSection_result h
    exact ⟨hpast, fun hrun => Or.inl (hstate hrun)⟩
  · cases h

/-- And it always does. -/
theorem CallState.Completes.proceed (h : st.Completes) (hr : Camera.proceed P g st = some r) :
    r.2.state = .running := by
  unfold CallState.Completes at h
  split at h
  · obtain rfl := Option.some.inj hr
    rfl
  · exact h.elim

end Sections

/-! ## The steps of the machine -/

section Next

variable {s s' : System T C} {k : Caller T} {e : Event T C}

/-- A start does not end its section under the mutex `RUNNING`. -/
theorem startSection_running (hP : 0 < P.uintMax) (h : s.Owned P) {env : CreateEnv}
    {r : CallState C × Globals C} (hr : startSection P env s.camera (s.calls k) = some r)
    (hrun : r.2.state = .running) : s.camera.state = .running := by
  unfold startSection at hr
  split at hr
  · rename_i config hk
    rcases h.cases with ⟨hidle | hup, -⟩ | ⟨k₀, hk₀⟩
    · have hstarts := cameraRealStart_starts hP hidle config env
      generalize cameraRealStart P config env s.camera = result at hr hstarts
      cases hstarts with
      | failed hret hleft hobs htrace =>
          obtain rfl := Option.some.inj hr
          rw [hleft.state] at hrun
          cases hrun
      | created hup htrace =>
          obtain rfl := Option.some.inj hr
          rw [hup.state] at hrun
          cases hrun
    · exact hup.state
    · have hstate : s.camera.state ≠ .stopped := by
        rcases (h.active hk₀).1.busy hk₀ with hstate | hstate
        · simp [hstate]
        · simp [hstate]
      obtain ⟨ret, -, heq⟩ := cameraRealStart_refuses (P := P) hstate config env
      rw [heq] at hr
      obtain rfl := Option.some.inj hr
      exact hrun
  · cases hr

/-- After the section of `camera_real_stop` under the mutex the camera is not `RUNNING`. -/
theorem stopSection_running (h : s.Owned P) {r : CallState C × Globals C}
    (hr : stopSection s.camera (s.calls k) = some r) : r.2.state ≠ .running := by
  unfold stopSection at hr
  split at hr
  · rcases h.cases with ⟨hidle | hup, -⟩ | ⟨k₀, hk₀⟩
    · rw [hidle.realStop] at hr
      obtain rfl := Option.some.inj hr
      show s.camera.state ≠ .running
      rw [hidle.state]
      nofun
    · rw [hup.realStop] at hr
      obtain rfl := Option.some.inj hr
      nofun
    · have hbusy := (h.active hk₀).1.busy hk₀
      rw [cameraRealStop_refuses hbusy] at hr
      obtain rfl := Option.some.inj hr
      show s.camera.state ≠ .running
      rcases hbusy with hstate | hstate
      · simp [hstate]
      · simp [hstate]
  · cases hr

variable [DecidableEq T] [DecidableEq C]

omit [DecidableEq T] [DecidableEq C] in
/-- An acquired slot was in use, and it counts one reference more. -/
theorem acquireSlot_ok {sizeMax : Nat} {slot slot' : ServiceSlot}
    (h : acquireSlot sizeMax slot = (.ok, slot')) :
    slot.used = true ∧ slot' = { slot with referenceCount := slot.referenceCount + 1 } := by
  unfold acquireSlot at h
  split at h
  · cases h
  rename_i hslot
  split at h
  · cases h
  · obtain ⟨-, rfl⟩ := Prod.mk.inj h
    refine ⟨?_, rfl⟩
    cases hused : slot.used with
    | true => rfl
    | false => exact absurd (Or.inl hused) hslot

theorem next_accounts (h : s.Staged) (hnext : next P s e = some s') : Accounts s s' := by
  cases next_cases hnext with
  | @acquired t request slot hidle hacquire =>
      obtain ⟨hused, rfl⟩ := acquireSlot_ok hacquire
      have hentered : (.entered request : CallState C) ≠ .idle := by
        intro heq
        cases heq
      exact .acquires hidle hentered hused rfl rfl rfl
  | refused _ => exact .same rfl rfl rfl
  | start _ =>
      refine section_accounts (fun r hr => ?_) hnext
      obtain ⟨⟨config, hk⟩, hpast⟩ := startSection_call hr
      rw [hk]
      refine ⟨fun heq => ?_, hpast⟩
      cases heq
  | stop _ =>
      refine section_accounts (fun r hr => ?_) hnext
      obtain ⟨hk, hpast⟩ := stopSection_call hr
      rw [hk]
      refine ⟨fun heq => ?_, hpast⟩
      cases heq
  | publish _ =>
      exact section_accounts
        (fun r hr => ⟨(publish_active hr).past.ne_idle, (publish_call hr).1⟩) hnext
  | callbackReturned hst =>
      have hactive := callbackReturned_active hst
      exact .calls hactive.past.ne_idle (callbackReturned_call hst).ne_idle rfl rfl rfl
  | proceed _ =>
      exact section_accounts
        (fun r hr => ⟨(proceed_active hr).past.ne_idle, (proceed_result hr).1⟩) hnext
  | wake _ =>
      exact section_accounts
        (fun r hr => ⟨(wake_active hr).past.ne_idle, (wake_call hr).1⟩) hnext
  | @release t ret hk =>
      have hne : s.calls (.thread t) ≠ .idle := by
        rw [hk]
        intro heq
        cases heq
      refine .releases hne rfl ?_ rfl
      show releaseSlot s.slot = _
      rw [releaseSlot, if_pos (h.pos hne)]
  | componentStop hrunning _ =>
      refine .stops ?_ (fun heq => ?_) (fun hne => absurd rfl hne) rfl rfl
      · rw [hrunning]
        intro heq
        cases heq
      · cases heq
  | componentStopped hstopping _ =>
      refine .stops ?_ (fun heq => ?_) (fun _ => rfl) rfl rfl
      · rw [hstopping]
        intro heq
        cases heq
      · cases heq
  | deinit hstopped =>
      have hold : s.shutdown ≠ .stopping := by
        rw [hstopped]
        intro heq
        cases heq
      -- the slot is in use: `sys_service_unregister` finds it
      have hused := h.used (by rw [hstopped]; intro heq; cases heq)
      by_cases hcount : s.slot.referenceCount = 0
      · refine .clears hold ?_ rfl hcount ?_
        all_goals simp [unregisterSlot, unregisterSlotLoop, hused, hcount]
      · refine .waits hold ?_ rfl ?_ ?_
        all_goals simp [unregisterSlot, unregisterSlotLoop, hused, hcount]
  | unregisterWake hwaiting =>
      have hold : s.shutdown ≠ .stopping := by
        rw [hwaiting]
        intro heq
        cases heq
      have hused := h.used (by rw [hwaiting]; intro heq; cases heq)
      by_cases hcount : s.slot.referenceCount = 0
      · refine .clears hold ?_ rfl hcount ?_
        all_goals simp [unregisterSlotLoop, hcount]
      · refine .waits hold ?_ rfl ?_ ?_
        all_goals simp [unregisterSlotLoop, hused, hcount]
  | producer _ => exact .same rfl rfl rfl
  | consumer _ => exact .same rfl rfl rfl

theorem staged_of_reachable (h : (cameraMachine T C P).Reachable s) : s.Staged :=
  h.invariant (fun _ (hfresh : System.Fresh _) => hfresh.staged)
    fun _ _ _ hstaged (hstep : (cameraMachine T C P).step _ _ _) =>
      (next_accounts hstaged hstep.1).staged hstaged

/-- `e` is the section with which a start sets `RUNNING`. -/
def System.Completes (s : System T C) : Event T C → Prop
  | .proceed k => (s.calls k).Completes
  | _ => False

/-- A camera becomes `RUNNING` by no other step. -/
theorem next_running (hP : 0 < P.uintMax) (h : s.Owned P) (hnext : next P s e = some s')
    (hrun : s'.camera.state = .running) : s.camera.state = .running ∨ s.Completes e := by
  cases next_cases hnext with
  | acquired _ _ => exact Or.inl hrun
  | refused _ => exact Or.inl hrun
  | start hr => exact Or.inl (startSection_running hP h hr hrun)
  | stop hr => exact absurd hrun (stopSection_running h hr)
  | publish hr => exact Or.inl ((publish_call hr).2 ▸ hrun)
  | callbackReturned _ => exact Or.inl hrun
  | proceed hr => exact (proceed_result hr).2 hrun
  | wake hr => exact Or.inl ((wake_call hr).2 ▸ hrun)
  | release _ => exact Or.inl hrun
  | componentStop _ _ => exact Or.inl hrun
  | componentStopped _ _ => exact Or.inl hrun
  | deinit _ => exact Or.inl hrun
  | unregisterWake _ => exact Or.inl hrun
  | producer _ => exact Or.inl hrun
  | consumer _ => exact Or.inl hrun

/-- `e` is a stop that finds the camera `RUNNING`. -/
def System.TakesDown (s : System T C) : Event T C → Prop
  | .stop _ => s.camera.state = .running
  | _ => False

omit [DecidableEq T] [DecidableEq C] in
/-- Nobody is past the mutex while the camera runs. -/
theorem System.Owned.up (h : s.Owned P) (hrun : s.camera.state = .running) :
    ∀ k, ¬ (s.calls k).Active := by
  rcases h.cases with ⟨-, hnone⟩ | ⟨k₀, hk₀⟩
  · exact hnone
  · rcases (h.active hk₀).1.busy hk₀ with hstate | hstate
    · rw [hstate] at hrun
      cases hrun
    · rw [hstate] at hrun
      cases hrun

/-- A camera stays `RUNNING` until a stop takes it down. -/
theorem next_runs (h : s.Owned P) (hnext : next P s e = some s')
    (hrun : s.camera.state = .running) (hdown : ¬ s.TakesDown e) :
    s'.camera.state = .running := by
  have hnone := h.up hrun
  cases next_cases hnext with
  | acquired _ _ => exact hrun
  | refused _ => exact hrun
  | @start k env r hr =>
      unfold startSection at hr
      split at hr
      · rename_i config hk
        have hstate : s.camera.state ≠ .stopped := by simp [hrun]
        obtain ⟨ret, -, heq⟩ := cameraRealStart_refuses (P := P) hstate config env
        rw [heq] at hr
        obtain rfl := Option.some.inj hr
        exact hrun
      · cases hr
  | stop _ => exact absurd hrun hdown
  -- the others belong to a call that is past the mutex
  | @publish k subscribers r hr => exact absurd (publish_active hr) (hnone k)
  | @callbackReturned k ret st hst => exact absurd (callbackReturned_active hst) (hnone k)
  | @proceed k r hr => exact absurd (proceed_active hr) (hnone k)
  | @wake k ret r hr => exact absurd (wake_active hr) (hnone k)
  | release _ => exact hrun
  | componentStop _ _ => exact hrun
  | componentStopped _ _ => exact hrun
  | deinit _ => exact hrun
  | unregisterWake _ => exact hrun
  | producer _ => exact hrun
  | consumer _ => exact hrun

/-- A stop that finds the camera `RUNNING` does not leave it so. -/
theorem takesDown_stops (h : s.Owned P) (hnext : next P s e = some s') (hdown : s.TakesDown e) :
    s'.camera.state ≠ .running := by
  cases e with
  | stop k =>
      obtain ⟨r, hr, -, hcamera⟩ := after_eq hnext
      rw [hcamera]
      exact stopSection_running h hr
  | _ => exact hdown.elim

theorem completes_running (hnext : next P s e = some s') (hcompletes : s.Completes e) :
    s'.camera.state = .running := by
  cases e with
  | proceed k =>
      obtain ⟨r, hr, -, hcamera⟩ := after_eq hnext
      rw [hcamera]
      exact CallState.Completes.proceed hcompletes hr
  | _ => exact hcompletes.elim

/-! ## The component's stop -/

/-- `camera_component_stop` is past its section under the mutex. -/
def System.StopPassed (s : System T C) : Prop :=
  match s.shutdown with
  | .running => False
  | .stopping => s.calls .shutdown ≠ .entered .stop
  | _ => True

omit [DecidableEq T] [DecidableEq C] in
theorem System.StopPassed.congr (hcalls : s'.calls .shutdown = .entered .stop ↔
    s.calls .shutdown = .entered .stop) (hshutdown : s'.shutdown = s.shutdown) :
    s'.StopPassed ↔ s.StopPassed := by
  unfold System.StopPassed
  rw [hshutdown]
  split
  · exact Iff.rfl
  · exact not_congr hcalls
  · exact Iff.rfl

omit [DecidableEq C] in
/-- What an application thread does. -/
theorem thread_stopPassed {t : T} {st : CallState C}
    (hcalls : s'.calls = Function.update s.calls (.thread t) st)
    (hshutdown : s'.shutdown = s.shutdown) : s'.StopPassed ↔ s.StopPassed := by
  refine System.StopPassed.congr ?_ hshutdown
  have hother : Caller.shutdown ≠ .thread t := nofun
  rw [hcalls, Function.update_of_ne hother]

omit [DecidableEq T] [DecidableEq C] in
/-- `deinit` has been called. -/
theorem unregister_stopPassed {ret : Option SysErr}
    (hshutdown : s.shutdown = if ret.isSome then .done else .unregistering) : s.StopPassed := by
  unfold System.StopPassed
  rw [hshutdown]
  cases ret with
  | none => trivial
  | some ret => trivial

omit [DecidableEq C] in
/-- A section of a call that is not about to stop the camera. -/
theorem section_stopPassed {st : CallState C} (hk : s.calls k ≠ .entered .stop)
    (hst : st ≠ .entered .stop) (hcalls : s'.calls = Function.update s.calls k st)
    (hshutdown : s'.shutdown = s.shutdown) : s'.StopPassed ↔ s.StopPassed := by
  refine System.StopPassed.congr ?_ hshutdown
  rw [hcalls]
  by_cases hshut : .shutdown = k
  · rw [hshut, Function.update_self]
    exact ⟨fun h => absurd h hst, fun h => absurd h hk⟩
  · rw [Function.update_of_ne hshut]

omit [DecidableEq C] in
theorem section_stopPassed_of_some {o : Option (CallState C × Globals C)}
    (hcall : ∀ r, o = some r → s.calls k ≠ .entered .stop ∧ r.1.Past)
    (hnext : o.map (s.after k) = some s') : s'.StopPassed ↔ s.StopPassed := by
  obtain ⟨r, hr, rfl⟩ := Option.map_eq_some_iff.mp hnext
  obtain ⟨hk, hpast⟩ := hcall r hr
  exact section_stopPassed hk (hpast.ne_entered _) rfl rfl

/-- The stop of the component is passed once and for all, and by its own section only. -/
theorem next_stopPassed (h : s.Staged) (hnext : next P s e = some s') :
    (s.StopPassed → s'.StopPassed) ∧ (s'.StopPassed → s.StopPassed ∨ e = .stop .shutdown) := by
  -- what changes nothing of the component's stop
  have hsame : (s'.StopPassed ↔ s.StopPassed) → (s.StopPassed → s'.StopPassed) ∧
      (s'.StopPassed → s.StopPassed ∨ e = .stop .shutdown) :=
    fun hiff => ⟨hiff.mpr, fun h' => Or.inl (hiff.mp h')⟩
  cases next_cases hnext with
  | acquired _ _ => exact hsame (thread_stopPassed rfl rfl)
  | refused _ => exact hsame Iff.rfl
  | start _ =>
      refine hsame (section_stopPassed_of_some (fun r hr => ?_) hnext)
      obtain ⟨⟨config, hk⟩, hpast⟩ := startSection_call hr
      rw [hk]
      refine ⟨fun heq => ?_, hpast⟩
      cases heq
  | @stop k r hr =>
      obtain ⟨hk, hpast⟩ := stopSection_call hr
      cases k with
      | thread t => exact hsame (thread_stopPassed rfl rfl)
      | shutdown =>
          refine ⟨fun hpassed => ?_, fun _ => Or.inr rfl⟩
          -- it is in its call only while it stops the component
          by_cases hstopping : s.shutdown = .stopping
          · unfold System.StopPassed at hpassed
            rw [hstopping] at hpassed
            exact absurd hk hpassed
          · rw [h.shutdownCall hstopping] at hk
            cases hk
  | publish _ =>
      refine hsame (section_stopPassed_of_some (fun r hr => ?_) hnext)
      exact ⟨(publish_active hr).past.ne_entered _, (publish_call hr).1⟩
  | callbackReturned hst =>
      exact hsame (section_stopPassed ((callbackReturned_active hst).past.ne_entered _)
        ((callbackReturned_call hst).ne_entered _) rfl rfl)
  | proceed _ =>
      refine hsame (section_stopPassed_of_some (fun r hr => ?_) hnext)
      exact ⟨(proceed_active hr).past.ne_entered _, (proceed_result hr).1⟩
  | wake _ =>
      refine hsame (section_stopPassed_of_some (fun r hr => ?_) hnext)
      exact ⟨(wake_active hr).past.ne_entered _, (wake_call hr).1⟩
  | release _ => exact hsame (thread_stopPassed rfl rfl)
  | componentStop hrunning _ =>
      constructor
      · intro hpassed
        unfold System.StopPassed at hpassed
        rw [hrunning] at hpassed
        exact hpassed.elim
      · intro hpassed
        have hleft : Function.update s.calls .shutdown (.entered .stop) .shutdown ≠
          .entered .stop := hpassed
        exact absurd (Function.update_self _ _ _) hleft
  | componentStopped hstopping hreturned =>
      refine ⟨fun _ => trivial, fun _ => Or.inl ?_⟩
      unfold System.StopPassed
      rw [hstopping]
      show s.calls .shutdown ≠ _
      rw [hreturned]
      intro heq
      cases heq
  | deinit hstopped =>
      have hpassed : s.StopPassed := by
        unfold System.StopPassed
        rw [hstopped]
        trivial
      exact ⟨fun _ => unregister_stopPassed rfl, fun _ => Or.inl hpassed⟩
  | unregisterWake hwaiting =>
      have hpassed : s.StopPassed := by
        unfold System.StopPassed
        rw [hwaiting]
        trivial
      exact ⟨fun _ => unregister_stopPassed rfl, fun _ => Or.inl hpassed⟩
  | producer _ => exact hsame Iff.rfl
  | consumer _ => exact hsame Iff.rfl

end Next

/-! ## Late starts -/

section Late

variable {s : System T C}

/-- No producer thread, no pool and no channel. -/
def System.NoStream (s : System T C) : Prop :=
  s.camera.stream.thread = none ∧ s.camera.stream.pool = none ∧ s.camera.stream.channel = none

/-- A start has set `RUNNING` when the component's stop was past its check, and no stop has
    found the camera `RUNNING` since then. -/
def LateStart (p : List (System T C × Event T C × System T C)) : Prop :=
  ∃ before u e v after, p = before ++ (u, e, v) :: after ∧ u.StopPassed ∧ u.Completes e ∧
    ∀ x ∈ after, ¬ x.1.TakesDown x.2.1

theorem lateStart_nil : ¬ LateStart ([] : List (System T C × Event T C × System T C)) := by
  rintro ⟨before, u, e, v, after, heq, -⟩
  cases before with
  | nil => cases heq
  | cons x rest => cases heq

/-- The last step of a run begins such a start, or leaves one as it is. -/
theorem lateStart_snoc {p : List (System T C × Event T C × System T C)} {u v : System T C}
    {e : Event T C} : LateStart (p ++ [(u, e, v)]) ↔
      u.StopPassed ∧ u.Completes e ∨ LateStart p ∧ ¬ u.TakesDown e := by
  constructor
  · rintro ⟨before, u', e', v', after, heq, hpassed, hcompletes, hafter⟩
    rcases List.eq_nil_or_concat after with rfl | ⟨rest, x, rfl⟩
    · obtain ⟨-, hlast⟩ := List.append_inj' heq rfl
      cases hlast
      exact Or.inl ⟨hpassed, hcompletes⟩
    · rw [List.concat_eq_append, ← List.cons_append, ← List.append_assoc] at heq
      obtain ⟨hfirst, hlast⟩ := List.append_inj' heq rfl
      cases hlast
      rw [List.concat_eq_append] at hafter
      refine Or.inr ⟨⟨before, u', e', v', rest, hfirst, hpassed, hcompletes, ?_⟩, ?_⟩
      · intro x hx
        exact hafter x (List.mem_append_left _ hx)
      · exact hafter (u, e, v) (List.mem_append_right _ (List.mem_singleton_self _))
  · rintro (⟨hpassed, hcompletes⟩ | ⟨⟨before, u', e', v', after, rfl, hpassed, hcompletes, hafter⟩,
      hdown⟩)
    · exact ⟨p, u, e, v, [], rfl, hpassed, hcompletes, fun x hx => by cases hx⟩
    · refine ⟨before, u', e', v', after ++ [(u, e, v)], by simp, hpassed, hcompletes, ?_⟩
      intro x hx
      rcases List.mem_append.mp hx with hmem | hlast
      · exact hafter x hmem
      · obtain rfl := List.mem_singleton.mp hlast
        exact hdown

variable [DecidableEq T] [DecidableEq C]

/-- From the component's stop on, the camera runs exactly when a start was late. -/
def LateInv (p : List (System T C × Event T C × System T C)) (s : System T C) : Prop :=
  (s.StopPassed → (s.camera.state = .running ↔ LateStart p)) ∧
    (¬ s.StopPassed → ¬ LateStart p)

theorem late_of_path (hP : 0 < P.uintMax) {p : List (System T C × Event T C × System T C)}
    (h : (cameraMachine T C P).Path p s) : LateInv p s := by
  refine h.invariant (fun s (hfresh : s.Fresh) => ⟨fun hpassed => ?_, fun _ => lateStart_nil⟩) ?_
  · unfold System.StopPassed at hpassed
    rw [hfresh.shutdown] at hpassed
    exact hpassed.elim
  intro p u e v hpath ⟨hpast, hbefore⟩ (hstep : (cameraMachine T C P).step u e v)
  have howned := owned_of_reachable hP hpath.reachable
  obtain ⟨hkeeps, hpasses⟩ := next_stopPassed (staged_of_reachable hpath.reachable) hstep.1
  constructor
  · intro hv
    rw [lateStart_snoc]
    by_cases hu : u.StopPassed
    · constructor
      · intro hrun
        rcases next_running hP howned hstep.1 hrun with hold | hcompletes
        · refine Or.inr ⟨(hpast hu).mp hold, fun hdown => ?_⟩
          exact takesDown_stops howned hstep.1 hdown hrun
        · exact Or.inl ⟨hu, hcompletes⟩
      · rintro (⟨-, hcompletes⟩ | ⟨hlate, hdown⟩)
        · exact completes_running hstep.1 hcompletes
        · exact next_runs howned hstep.1 ((hpast hu).mpr hlate) hdown
    · -- this is the section of the component's stop
      obtain rfl := (hpasses hv).resolve_left hu
      obtain ⟨r, hr, -, hcamera⟩ := after_eq hstep.1
      have hnot : v.camera.state ≠ .running := by
        rw [hcamera]
        exact stopSection_running howned hr
      refine ⟨fun hrun => absurd hrun hnot, ?_⟩
      rintro (⟨hpassed, -⟩ | ⟨hlate, -⟩)
      · exact absurd hpassed hu
      · exact absurd hlate (hbefore hu)
  · intro hv
    have hu : ¬ u.StopPassed := fun hpassed => hv (hkeeps hpassed)
    rw [lateStart_snoc]
    rintro (⟨hpassed, -⟩ | ⟨hlate, -⟩)
    · exact hu hpassed
    · exact hbefore hu hlate

/-- When `camera_deinit` has returned nobody is in a call. -/
theorem done_rest (hP : 0 < P.uintMax) (h : (cameraMachine T C P).Reachable s)
    (hdone : s.shutdown = .done) : s.slot.used = false ∧ s.camera.Rest P := by
  have hstaged := staged_of_reachable h
  obtain ⟨hunused, hzero⟩ := hstaged.unused hdone
  refine ⟨hunused, ?_⟩
  rcases (owned_of_reachable hP h).cases with ⟨hrest, -⟩ | ⟨k, hactive⟩
  · exact hrest
  · cases k with
    | thread t =>
        rw [hstaged.idle hzero t] at hactive
        exact hactive.elim
    | shutdown =>
        rw [hstaged.shutdownCall (by rw [hdone]; nofun)] at hactive
        exact hactive.elim

/-- When `camera_deinit` has returned the service is not registered any more, and the stream
    is gone exactly when no start was late. -/
theorem deinit_noStream_iff (hP : 0 < P.uintMax)
    {p : List (System T C × Event T C × System T C)} (h : (cameraMachine T C P).Path p s)
    (hdone : s.shutdown = .done) : s.slot.used = false ∧ (s.NoStream ↔ ¬ LateStart p) := by
  obtain ⟨hunused, hrest⟩ := done_rest hP h.reachable hdone
  have hpassed : s.StopPassed := by
    unfold System.StopPassed
    rw [hdone]
    trivial
  have hlate := (late_of_path hP h).1 hpassed
  refine ⟨hunused, ?_⟩
  rcases hrest with hidle | hup
  · have hnot : s.camera.state ≠ .running := by
      rw [hidle.state]
      nofun
    exact ⟨fun _ hlater => hnot (hlate.mpr hlater),
      fun _ => ⟨hidle.gone.thread, hidle.gone.pool, hidle.gone.channel⟩⟩
  · constructor
    · rintro ⟨hthread, -, -⟩
      have hsome := hup.thread
      rw [hthread] at hsome
      cases hsome
    · intro hnever
      exact absurd (hlate.mp hup.state) hnever

end Late

/-! ## Two shutdowns -/

/-- A start of a stream of two frames of 5 by 5. -/
def smallStart : Request :=
  .start (some { fps := 30, width := 5, height := 5, bufferCount := 2 })

/-- A stream with one consumer that `camera_component_stop` takes down. -/
def orderlyShutdown : List (Event Unit Unit) :=
  [.acquire () smallStart, .start (.thread ()) {}, .publish (.thread ()) (some [()]),
    .consumer () .retain, .callbackReturned (.thread ()) .ok, .proceed (.thread ()), .release (),
    .componentStop, .stop .shutdown, .proceed .shutdown, .proceed .shutdown, .proceed .shutdown,
    .producer 7, .proceed .shutdown, .publish .shutdown (some [()]), .consumer () .release,
    .callbackReturned .shutdown .ok, .proceed .shutdown, .proceed .shutdown, .proceed .shutdown,
    .proceed .shutdown, .proceed .shutdown, .componentStopped, .deinit]

/-- A start that is publishing its event when the component is stopped. -/
def overtakenShutdown : List (Event Unit Unit) :=
  [.acquire () smallStart, .start (.thread ()) {}, .publish (.thread ()) (some []),
    -- `STARTING`: the component's stop returns `SYS_ERR_BUSY`
    .componentStop, .stop .shutdown, .componentStopped,
    -- `sys_service_unregister` waits for the start, which ends `RUNNING`
    .deinit, .proceed (.thread ()), .release (), .unregisterWake]

/-- What the run of a shutdown leaves. -/
def System.remains (s : System Unit Unit) : Shutdown × Bool × Bool × Bool :=
  (s.shutdown, s.camera.stream.thread.isSome, s.camera.stream.pool.isSome,
    s.camera.stream.channel.isSome)

theorem deinit_noStream_iff_orderly :
    ∃ p s, (cameraMachine Unit Unit .lp64).Path p s ∧
      p.map (fun x => x.2.1) = orderlyShutdown ∧ s.shutdown = .done ∧ ¬ LateStart p := by
  obtain ⟨s, hexec, hremains⟩ := Option.map_eq_some_iff.mp (show
    (Machine.execIf (next .lp64) Contract (System.initial Unit Unit) orderlyShutdown).map
      System.remains = some (.done, false, false, false) by decide)
  have hrun : (cameraMachine Unit Unit .lp64).Run (System.initial Unit Unit)
      orderlyShutdown s := Machine.Run.of_execIf hexec
  obtain ⟨p, hpath, hevents⟩ := hrun.exists_path System.initial_fresh
  obtain ⟨hdone, hthread, hpool, hchannel⟩ : s.shutdown = .done ∧
      s.camera.stream.thread.isSome = false ∧ s.camera.stream.pool.isSome = false ∧
      s.camera.stream.channel.isSome = false := by
    simpa only [System.remains, Prod.mk.injEq] using hremains
  refine ⟨p, s, hpath, hevents, hdone, ?_⟩
  refine (deinit_noStream_iff (by decide) hpath hdone).2.mp ⟨?_, ?_, ?_⟩
  · exact Option.isSome_eq_false_iff.mp hthread |> Option.isNone_iff_eq_none.mp
  · exact Option.isSome_eq_false_iff.mp hpool |> Option.isNone_iff_eq_none.mp
  · exact Option.isSome_eq_false_iff.mp hchannel |> Option.isNone_iff_eq_none.mp

/-- A stream that survives the shutdown: the producer thread runs, and its pool and its channel
    are there, when `camera_deinit` has returned. -/
theorem deinit_leaves_stream :
    ¬ ∀ s, (cameraMachine Unit Unit .lp64).Reachable s → s.shutdown = .done →
      s.NoStream := by
  intro hclaim
  obtain ⟨s, hexec, hremains⟩ := Option.map_eq_some_iff.mp (show
    (Machine.execIf (next .lp64) Contract (System.initial Unit Unit) overtakenShutdown).map
      System.remains = some (.done, true, true, true) by decide)
  have hrun : (cameraMachine Unit Unit .lp64).Run (System.initial Unit Unit)
      overtakenShutdown s := Machine.Run.of_execIf hexec
  obtain ⟨hdone, hthread, -, -⟩ : s.shutdown = .done ∧
      s.camera.stream.thread.isSome = true ∧ s.camera.stream.pool.isSome = true ∧
      s.camera.stream.channel.isSome = true := by
    simpa only [System.remains, Prod.mk.injEq] using hremains
  obtain ⟨hnone, -, -⟩ := hclaim s ⟨_, _, System.initial_fresh, hrun⟩ hdone
  rw [hnone] at hthread
  cases hthread

end Camera
end AppCore
