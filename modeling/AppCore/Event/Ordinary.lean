/-
  AppCore.Event.Ordinary

  The steps of the bus that neither start nor stop it: they leave the flags and the calls
  of `sys_event_bus_start` and `sys_event_bus_stop` alone, and while the bus accepts nothing
  they bring nothing new into the table, the queue and the calls.
-/

import AppCore.Event.Cases
import AppCore.Event.References
import AppCore.Event.Table

namespace AppCore
namespace Event

variable {Tid K : Type*}

/-- A call that is over, or is a start or a stop. -/
def CallState.Session : CallState → Prop
  | .starting => True
  | .storing => True
  | .stopJoin => True
  | .stopWait => True
  | .returned _ _ _ => True
  | _ => False

/-- The same flags. -/
structure Globals.SameFlags (g g' : Globals K) : Prop where
  running : g'.running = g.running
  accepting : g'.accepting = g.accepting
  thread : g'.thread = g.thread

theorem Globals.SameFlags.refl (g : Globals K) : g.SameFlags g := ⟨rfl, rfl, rfl⟩

/-- A step that neither starts nor stops the bus. -/
structure Ordinary (s s' : Bus Tid K) : Prop where
  flags : s.globals.SameFlags s'.globals
  worker : s'.worker = .absent ↔ s.worker = .absent
  calls : ∀ k, (s.calls k).Session → s'.calls k = s.calls k

/-! ## Sections -/

theorem advance_flags {d d' : Delivery} {g g' : Globals K} {started : Option Nat}
    (h : d.advance g = some (g', d', started)) : g.SameFlags g' := by
  cases advance_cases h with
  | starts _ _ => exact Globals.SameFlags.refl g
  | counted _ => exact ⟨rfl, rfl, rfl⟩
  | finished _ _ hfin =>
      obtain ⟨sub, -, rfl⟩ := Option.map_eq_some_iff.mp hfin
      exact ⟨rfl, rfl, rfl⟩

theorem eventWorker_flags (g : Globals K) : g.SameFlags (eventWorker g).1 := by
  have hhead := eventWorker_cases g
  generalize eventWorker g = r at hhead ⊢
  cases hhead <;> exact ⟨rfl, rfl, rfl⟩

theorem eventWorker_ne_absent (g : Globals K) : (eventWorker g).2 ≠ .absent := by
  have hhead := eventWorker_cases g
  generalize eventWorker g = r at hhead ⊢
  cases hhead <;> exact fun h => nomatch h

/-! ## Steps -/

section Steps

variable [DecidableEq K] {s s' : Bus Tid K} {t : Thread Tid} {k : K}

/-- A section after which only the call `k` has moved, which was no start and no stop. -/
theorem Ordinary.call {st : CallState} {g : Globals K} {stack : Thread Tid → List K}
    {locals : Thread Tid → ThreadLocal} {sl al : List (K × Obs)} (hg : s.globals.SameFlags g)
    (hk : ¬ (s.calls k).Session) :
    Ordinary s ⟨g, s.worker, Function.update s.calls k st, stack, locals, sl, al⟩ := by
  refine ⟨hg, Iff.rfl, fun k' hk' => ?_⟩
  apply Function.update_of_ne
  rintro rfl
  exact hk hk'

omit [DecidableEq K] in
theorem not_session_of_notStarted (hk : s.calls k = .notStarted) : ¬ (s.calls k).Session := by
  rw [hk]
  exact fun h => h

variable [DecidableEq Tid]

theorem begin_ordinary {call : Call} (hk : s.calls k = .notStarted) (hstart : call ≠ .start)
    (hstop : call ≠ .stop) (h : begin s t k call = some s') : Ordinary s s' := by
  have hk := not_session_of_notStarted hk
  cases begin_cases h with
  | startRefused _ => exact absurd rfl hstart
  | started _ => exact absurd rfl hstart
  | stopIdle _ => exact absurd rfl hstop
  | stopping _ => exact absurd rfl hstop
  | _ => exact Ordinary.call ⟨rfl, rfl, rfl⟩ hk

theorem proceedCall_ordinary (hk : ¬ (s.calls k).Session) (h : proceedCall s t k = some s') :
    Ordinary s s' := by
  cases proceedCall_cases h with
  | published _ _ => exact Ordinary.call (Globals.SameFlags.refl _) hk
  | publishing _ hadv => exact Ordinary.call (advance_flags hadv) hk
  | unsubscribeWaits _ _ => exact ⟨Globals.SameFlags.refl _, Iff.rfl, fun _ _ => rfl⟩
  | unsubscribed _ _ => exact Ordinary.call (Globals.SameFlags.refl _) hk
  | freed _ => exact Ordinary.call ⟨rfl, rfl, rfl⟩ hk
  | stored hstoring =>
      rw [hstoring] at hk
      exact absurd trivial hk
  | stopWaits hwait _ =>
      rw [hwait] at hk
      exact absurd trivial hk
  | stopped hwait _ =>
      rw [hwait] at hk
      exact absurd trivial hk

omit [DecidableEq K] in
theorem proceedWorker_ordinary (h : proceedWorker s = some s') : Ordinary s s' := by
  have habsent : ∀ w : WorkerLoop K, s.worker ≠ .absent → w ≠ .absent →
      (w = .absent ↔ s.worker = .absent) := fun w hs hne => ⟨fun h => absurd h hne,
    fun h => absurd h hs⟩
  cases proceedWorker_cases h with
  | head hw =>
      refine ⟨eventWorker_flags s.globals, habsent _ ?_ (eventWorker_ne_absent s.globals),
        fun _ _ => rfl⟩
      rw [hw]
      exact fun h => nomatch h
  | delivered hw _ =>
      refine ⟨Globals.SameFlags.refl _, habsent _ ?_ (fun h => nomatch h), fun _ _ => rfl⟩
      rw [hw]
      exact fun h => nomatch h
  | delivering hw hadv =>
      refine ⟨advance_flags hadv, habsent _ ?_ (fun h => nomatch h), fun _ _ => rfl⟩
      rw [hw]
      exact fun h => nomatch h

theorem callbackReturn_ordinary {ret : SysErr} (h : callbackReturn s t ret = some s') :
    Ordinary s s' := by
  cases callbackReturn_cases h with
  | call _ hk _ => exact Ordinary.call (Globals.SameFlags.refl _) (by rw [hk]; exact fun h => h)
  | worker _ hw _ =>
      refine ⟨Globals.SameFlags.refl _, ⟨(fun h => nomatch h), fun h => ?_⟩, fun _ _ => rfl⟩
      have habs : s.worker = .absent := h
      rw [hw] at habs
      cases habs

/-! ## A bus that accepts nothing -/

omit [DecidableEq Tid] in
/-- Nothing comes into the queue. -/
theorem Effect.queued_nil (h : Effect s s') (hacc : s.globals.accepting = false)
    (hq : s.globals.queued = []) : s'.globals.queued = [] := by
  cases h with
  | moved hshared _ _ _ _ _ _ _ _ _ _ _ => exact hshared.queued.trans hq
  | workerMoved hshared _ _ _ _ => exact hshared.queued.trans hq
  | workerStarted _ _ _ => exact hq
  | subscribed _ _ _ _ _ => exact hq
  | detached _ _ _ => exact hq
  | published _ _ _ _ _ _ hqueued => exact hqueued.trans hq
  | accepted _ _ _ _ _ _ _ hopen _ _ _ _ _ =>
      rw [hopen] at hacc
      cases hacc
  | taken _ hqueued _ _ _ _ =>
      rw [hqueued] at hq
      cases hq
  | callFinished _ _ _ _ => exact hq
  | workerFinished _ _ _ _ => exact hq
  | freed _ => exact hq
  | stopped _ _ => exact hq

omit [DecidableEq Tid] in
/-- With an empty table no call gets a subscription to call back. -/
theorem Effect.refs_nil (h : Effect s s') (htable : s.globals.subscribers = [])
    (hrefs : ∀ k, (s.calls k).refs = []) : ∀ k, (s'.calls k).refs = [] := by
  have hupdate : ∀ k st, st.refs = [] → ∀ k', (Function.update s.calls k st k').refs = [] := by
    intro k st hst k'
    by_cases hkk : k' = k
    · rw [hkk, Function.update_self]
      exact hst
    · rw [Function.update_of_ne hkk]
      exact hrefs k'
  have hmatching : ∀ eventId, s.globals.matching eventId = [] := by
    intro eventId
    rw [Globals.matching, htable]
    rfl
  cases h with
  | @moved k st _ _ _ _ _ _ _ _ _ _ hst _ _ _ _ _ _ => exact hupdate k st (hst.trans (hrefs k))
  | workerMoved _ _ _ _ _ => exact hrefs
  | workerStarted _ _ _ => exact hrefs
  | subscribed _ _ _ _ _ => exact hupdate _ _ rfl
  | detached _ _ hst => exact hupdate _ _ (by rcases hst with rfl | ⟨rfl, -⟩ <;> rfl)
  | published event _ _ _ _ _ _ => exact hupdate _ _ (hmatching event.id)
  | accepted _ _ _ _ _ _ _ _ _ _ _ _ _ => exact hupdate _ _ rfl
  | taken _ _ _ _ _ _ => exact hrefs
  | @callFinished k d _ a rest _ _ hk _ hpending _ =>
      have hnil := hrefs k
      rw [hk] at hnil
      have hpend : d.pending = [] := hnil
      rw [hpending] at hpend
      cases hpend
  | workerFinished _ _ _ _ => exact hrefs
  | freed _ => exact hupdate _ _ rfl
  | stopped _ _ => exact hupdate _ _ rfl

omit [DecidableEq K] in
/-- Nothing comes into the table. -/
theorem TableStep.table_nil {adds : Prop} {g g' : Globals K} {calls calls' : K → CallState}
    (h : TableStep adds g calls g' calls') (hacc : g.accepting = false)
    (htable : g.subscribers = []) : g'.subscribers = [] := by
  cases h with
  | kept hkeeps _ => exact hkeeps.subscribers.trans htable
  | added _ hopen _ _ _ _ =>
      rw [hopen] at hacc
      cases hacc
  | removed a hmem _ _ _ _ =>
      rw [htable] at hmem
      exact (List.not_mem_nil hmem).elim
  | freed _ _ _ hsubs _ _ _ => exact hsubs.trans htable
  | emptied hsubs _ _ _ => exact hsubs

end Steps

end Event
end AppCore
