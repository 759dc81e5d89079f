/-
  AppCore.Core.Table

  What a step of the framework can do to the subscription table.
-/

import AppCore.Core.System
import AppCore.Event.Table

namespace AppCore
namespace Core

open Event (Bus Thread CallState Call Globals TableStep)

variable {Tid K : Type*} [DecidableEq Tid] [DecidableEq K] {s s' : Framework Tid K}

/-- The action is a subscribing call. -/
def CoreAction.Subscribes : CoreAction Tid K → Prop
  | .bus (.call _ _ call) => call.Subscribes
  | _ => False

theorem busStep_table {a : Event.Action (Caller Tid) K} (h : busStep s a = some s') :
    TableStep (CoreAction.Subscribes (.bus a)) s.bus.globals s.bus.calls s'.bus.globals
      s'.bus.calls := by
  cases a with
  | call t k call =>
      simp only [busStep] at h
      split at h
      · obtain ⟨b, hb, rfl⟩ := Option.map_eq_some_iff.mp h
        simp only [Event.next] at hb
        split at hb
        · exact Event.begin_table hb
        · cases hb
      · cases h
  | proceed t =>
      simp only [busStep] at h
      split at h
      · rename_i n _
        obtain ⟨b, hb, rfl⟩ := Option.map_eq_some_iff.mp h
        obtain ⟨hkeeps, hcalls⟩ := Event.proceedWorker_table hb
        refine TableStep.kept hkeeps fun k x hx => ?_
        have hx : (b.calls k).taken = some x := hx
        rwa [hcalls] at hx
      · obtain ⟨b, hb, rfl⟩ := Option.map_eq_some_iff.mp h
        exact Event.proceed_table hb
  | callbackReturn t ret =>
      simp only [busStep] at h
      split at h
      · cases h
      · split at h
        · rename_i n _
          obtain ⟨b, hb, rfl⟩ := Option.map_eq_some_iff.mp h
          have hstep := Event.callbackReturn_table hb
          exact hstep
        · obtain ⟨b, hb, rfl⟩ := Option.map_eq_some_iff.mp h
          exact Event.callbackReturn_table hb
  | threadCreate t ret =>
      simp only [busStep] at h
      split at h
      · obtain ⟨b, hb, rfl⟩ := Option.map_eq_some_iff.mp h
        have hstep := Event.threadCreate_table hb
        exact hstep
      · obtain ⟨b, hb, rfl⟩ := Option.map_eq_some_iff.mp h
        exact Event.threadCreate_table hb
  | join t ret =>
      obtain ⟨b, hb, rfl⟩ := Option.map_eq_some_iff.mp h
      exact Event.join_table hb

/-- What a step of the framework can do to the table. -/
theorem next_table {a : CoreAction Tid K} (h : next s a = some s') :
    TableStep a.Subscribes s.bus.globals s.bus.calls s'.bus.globals s'.bus.calls := by
  have hstill : ∀ v : Framework Tid K, v.bus = s.bus →
      TableStep a.Subscribes s.bus.globals s.bus.calls v.bus.globals v.bus.calls := by
    intro v hbus
    rw [hbus]
    exact TableStep.kept (Globals.Keeps.refl _) fun _ _ hx => hx
  cases next_cases h with
  | bus hstep => exact busStep_table hstep
  | init _ =>
      apply hstill
      unfold sysCoreInit
      split <;> rfl
  | shutdown _ =>
      apply hstill
      unfold sysCoreShutdown
      split <;> rfl
  | startCalled _ _ _ hb => exact Event.begin_table hb
  | stopCalled _ _ _ hb => exact Event.begin_table hb
  | startReturned _ _ _ => exact hstill _ rfl
  | stopReturned _ _ _ => exact hstill _ rfl
  | passReturned _ _ _ => exact hstill _ rfl
  | finished _ _ => exact hstill _ rfl

end Core
end AppCore
