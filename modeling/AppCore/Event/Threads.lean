/-
  AppCore.Event.Threads

  The bus as a library that calls back: what an atomic step does to the calls, to the
  stacks of the threads and to their thread-local variables.  `Move` lists the changes;
  nothing is said of the table, the heap and the queue.
-/

import AppCore.Event.Cases
import AppCore.Lib.Reentry

namespace AppCore
namespace Event

open Reentry (Act)

variable {Tid K : Type*}

/-- What a call is doing. -/
def CallState.status : CallState → Reentry.Status
  | .notStarted => .fresh
  | .returned _ _ _ => .over
  | .publishing d _ => if d.phase = .running then .inCallback else .active
  | _ => .active

/-- The worker is in a callback. -/
def WorkerLoop.inCallback : WorkerLoop K → Bool
  | .delivering _ d => d.phase = .running
  | _ => false

/-- What a call can be in after its first section, when it is not over. -/
def Call.Opens (tls : ThreadLocal) : Call → CallState → Prop
  | .start, st => st = .starting
  | .stop, st => st = .stopJoin
  | .unsubscribe (some a), st =>
    tls.callbackDepth = 0 ∧ (st = .unsubscribeWait a ∨ st = .unsubscribeFree a)
  | .publishSync _ _ _, st => ∃ d firstError, st = .publishing d firstError ∧ d.phase = .ready
  | _, _ => False

/-- A section in which a call neither returns nor starts a callback. -/
inductive CallState.Advances : CallState → CallState → Prop
  | publishing {d d' firstError} : d.phase ≠ .running → d'.phase ≠ .running →
      Advances (.publishing d firstError) (.publishing d' firstError)
  | unsubscribe {a} : Advances (.unsubscribeWait a) (.unsubscribeFree a)

/-- The changes of a call. -/
inductive CallState.Next : CallState → CallState → Prop
  | answered {call ret out} : Next .notStarted (.returned call ret out)
  | opened {tls st} {call : Call} : call.Opens tls st → Next .notStarted st
  | advanced {st st'} : CallState.Advances st st' → Next st st'
  | created : Next .starting .storing
  | joined : Next .stopJoin .stopWait
  | calledBack {d firstError} : d.phase = .ready →
      Next (.publishing d firstError) (.publishing { d with phase := .running } firstError)
  | resumed {d firstError firstError' ret} : d.phase = .running →
      Next (.publishing d firstError) (.publishing (d.returned ret) firstError')
  | left {st call ret} : st.status = .active → Next st (.returned call ret none)

/-- The changes of the loop of the worker, on the thread `t`. -/
inductive WorkerLoop.Loops (t : Thread Tid) (w : WorkerLoop K) (tls : ThreadLocal) :
    Act (Thread Tid) → WorkerLoop K → ThreadLocal → Prop
  | advanced {w'} : w.inCallback = false → w'.inCallback = false → w ≠ .absent → w' ≠ .absent →
      Loops t w tls .library w' tls
  | calledBack {k d a} : w = .delivering k d → d.phase = .ready → d.pending.head? = some a →
      Loops t w tls .library (.delivering k { d with phase := .running })
        (tls.enterCallback (some a))
  | resumed {k d ret} : w = .delivering k d → d.phase = .running →
      Loops t w tls (.resumes t) (.delivering k (d.returned ret)) tls.leaveCallback

variable [DecidableEq Tid] [DecidableEq K]

/-- The changes of an atomic step. -/
inductive Move (s : Bus Tid K) : Act (Thread Tid) → Bus Tid K → Prop
  /-- A wait goes on. -/
  | waited {g} : Move s .library { s with globals := g }
  | answered {k call ret out g log} : s.calls k = .notStarted →
      Move s .library ⟨g, s.worker, Function.update s.calls k (.returned call ret out), s.stack,
        s.locals, s.syncLog, log⟩
  | entered {t k st g log} {call : Call} : s.calls k = .notStarted → call.Opens (s.locals t) st →
      Move s (.enters t) ⟨g, s.worker, Function.update s.calls k st,
        Function.update s.stack t (k :: s.stack t), s.locals, log, s.asyncLog⟩
  | advanced {t k rest st g} : s.stack t = k :: rest → (s.calls k).Advances st →
      Move s .library ⟨g, s.worker, Function.update s.calls k st, s.stack, s.locals, s.syncLog,
        s.asyncLog⟩
  | created {t k rest g} : s.stack t = k :: rest → s.calls k = .starting → s.worker = .absent →
      Move s .library ⟨g, .waiting, Function.update s.calls k .storing, s.stack,
        Function.update s.locals .worker {}, s.syncLog, s.asyncLog⟩
  | joined {t k rest g} : s.stack t = k :: rest → s.calls k = .stopJoin → t ≠ .worker →
      s.worker = .exited →
      Move s .library ⟨g, .absent, Function.update s.calls k .stopWait, s.stack, s.locals,
        s.syncLog, s.asyncLog⟩
  | calledBack {t k rest d firstError a g log} : s.stack t = k :: rest →
      s.calls k = .publishing d firstError → d.phase = .ready → d.pending.head? = some a →
      Move s .library ⟨g, s.worker,
        Function.update s.calls k (.publishing { d with phase := .running } firstError), s.stack,
        Function.update s.locals t ((s.locals t).enterCallback (some a)), log, s.asyncLog⟩
  | resumed {t k rest d firstError firstError' ret log} : s.stack t = k :: rest →
      s.calls k = .publishing d firstError → d.phase = .running →
      Move s (.resumes t) ⟨s.globals, s.worker,
        Function.update s.calls k (.publishing (d.returned ret) firstError'), s.stack,
        Function.update s.locals t (s.locals t).leaveCallback, log, s.asyncLog⟩
  | left {t k rest call ret g} : s.stack t = k :: rest → (s.calls k).status = .active →
      Move s .library ⟨g, s.worker, Function.update s.calls k (.returned call ret none),
        Function.update s.stack t rest, s.locals, s.syncLog, s.asyncLog⟩
  | looped {act w tls g log} : s.stack .worker = [] →
      WorkerLoop.Loops Thread.worker s.worker (s.locals .worker) act w tls →
      Move s act ⟨g, w, s.calls, s.stack, Function.update s.locals .worker tls, s.syncLog, log⟩

section Sections

variable {s s' : Bus Tid K} {t : Thread Tid} {k : K} {rest : List K}

omit [DecidableEq Tid] [DecidableEq K] in
theorem Delivery.returned_phase (d : Delivery) (ret : SysErr) :
    (d.returned ret).phase ≠ .running := by
  unfold Delivery.returned
  by_cases hret : ret ≠ .ok
  · rw [if_pos hret]
    exact fun h => nomatch h
  · rw [if_neg hret]
    exact fun h => nomatch h

theorem Move.leave {call : Call} {ret : SysErr} {g : Globals K} (hstack : s.stack t = k :: rest)
    (hk : (s.calls k).status = .active) :
    Move s .library (({ s with globals := g } : Bus Tid K).leave t k call ret) := by
  have hmove : Move s .library ⟨g, s.worker, Function.update s.calls k (.returned call ret none),
      Function.update s.stack t rest, s.locals, s.syncLog, s.asyncLog⟩ := Move.left hstack hk
  have htail : (s.stack t).tail = rest := by rw [hstack, List.tail_cons]
  rw [← htail] at hmove
  exact hmove

/-- The first section of a call answers it, or its thread has entered the bus. -/
theorem begin_opens {call : Call} (h : begin s t k call = some s') :
    (∃ ret out g log, s' = ⟨g, s.worker, Function.update s.calls k (.returned call ret out),
      s.stack, s.locals, s.syncLog, log⟩) ∨
    ∃ st g log, call.Opens (s.locals t) st ∧ s' = ⟨g, s.worker, Function.update s.calls k st,
      Function.update s.stack t (k :: s.stack t), s.locals, log, s.asyncLog⟩ := by
  cases begin_cases h with
  | started _ => exact Or.inr ⟨_, _, _, rfl, rfl⟩
  | stopping _ => exact Or.inr ⟨_, _, _, rfl, rfl⟩
  | unsubscribed hdepth _ _ =>
      refine Or.inr ⟨_, _, _, ⟨hdepth, ?_⟩, rfl⟩
      split
      · exact Or.inl rfl
      · exact Or.inr rfl
  | syncAccepted _ _ => exact Or.inr ⟨_, _, _, ⟨_, _, rfl, rfl⟩, rfl⟩
  | _ => exact Or.inl ⟨_, _, _, _, rfl⟩

omit [DecidableEq Tid] [DecidableEq K] in
/-- The sections of a loop over subscribers start a callback or run the loop's own code. -/
theorem advance_phase {d d' : Delivery} {g g' : Globals K} {started : Option Nat}
    (h : d.advance g = some (g', d', started)) :
    (∃ a, d.phase = .ready ∧ d.pending.head? = some a ∧ d' = { d with phase := .running } ∧
        started = some a) ∨
      (d.phase ≠ .running ∧ d'.phase ≠ .running ∧ started = none) := by
  cases advance_cases h with
  | @starts a rest hphase hpending => exact Or.inl ⟨a, hphase, by rw [hpending]; rfl, rfl, rfl⟩
  | counted hphase =>
      exact Or.inr ⟨by rw [hphase]; decide, (show Phase.finishing ≠ .running by decide), rfl⟩
  | finished hphase _ _ =>
      exact Or.inr ⟨by rw [hphase]; decide, (show Phase.ready ≠ .running by decide), rfl⟩

theorem proceedCall_move (hstack : s.stack t = k :: rest) (h : proceedCall s t k = some s') :
    Move s .library s' := by
  cases proceedCall_cases h with
  | published hk hend =>
      refine Move.leave hstack ?_
      rw [hk, CallState.status, hend.1, if_neg (by decide)]
  | @publishing d firstError g' d' started hk hadv =>
      rcases advance_phase hadv with ⟨a, hphase, hhead, rfl, rfl⟩ | ⟨hphase, hphase', rfl⟩
      · exact Move.calledBack hstack hk hphase hhead
      · have hadvances : (s.calls k).Advances (.publishing d' firstError) := by
          rw [hk]
          exact CallState.Advances.publishing hphase hphase'
        have hmove := Move.advanced (g := g') hstack hadvances
        convert hmove using 1
        simp [ThreadLocal.enterCallback, startedObs, Bus.setCall]
  | unsubscribeWaits _ _ => exact Move.waited
  | @unsubscribed a hk _ =>
      have hadvances : (s.calls k).Advances (.unsubscribeFree a) := by
        rw [hk]
        exact CallState.Advances.unsubscribe
      exact Move.advanced hstack hadvances
  | freed hk => exact Move.leave hstack (by rw [hk]; rfl)
  | stored hk => exact Move.leave hstack (by rw [hk]; rfl)
  | stopWaits _ _ => exact Move.waited
  | stopped hk _ => exact Move.leave hstack (by rw [hk]; rfl)

omit [DecidableEq Tid] [DecidableEq K] in
/-- At the head of its loop the worker waits, delivers or leaves. -/
theorem eventWorker_loop (g : Globals K) :
    (eventWorker g).2.inCallback = false ∧ (eventWorker g).2 ≠ .absent := by
  have hhead := eventWorker_cases g
  generalize eventWorker g = r at hhead ⊢
  cases hhead <;> exact ⟨rfl, fun h => nomatch h⟩

omit [DecidableEq K] in
/-- A section of the worker's loop, on whatever thread the loop is. -/
theorem proceedWorker_loops (u : Thread Tid) (h : proceedWorker s = some s') :
    ∃ g w tls log, WorkerLoop.Loops u s.worker (s.locals .worker) .library w tls ∧
      s' = { s with
        globals := g, worker := w, locals := Function.update s.locals .worker tls
        asyncLog := log } := by
  cases proceedWorker_cases h with
  | head hw =>
      obtain ⟨hout, hpresent⟩ := eventWorker_loop s.globals
      refine ⟨(eventWorker s.globals).1, (eventWorker s.globals).2, s.locals .worker, s.asyncLog,
        ?_, ?_⟩
      · refine WorkerLoop.Loops.advanced ?_ hout ?_ hpresent
        · rw [hw]
          rfl
        · rw [hw]
          exact fun h => nomatch h
      · rw [Function.update_eq_self]
  | @delivered k d hw hend =>
      refine ⟨s.globals, .waiting, s.locals .worker, s.asyncLog, ?_, ?_⟩
      · refine WorkerLoop.Loops.advanced ?_ rfl ?_ (fun h => nomatch h)
        · rw [hw, WorkerLoop.inCallback, hend.1]
          rfl
        · rw [hw]
          exact fun h => nomatch h
      · rw [Function.update_eq_self]
  | @delivering k d g' d' started hw hadv =>
      rcases advance_phase hadv with ⟨a, hphase, hhead, rfl, rfl⟩ | ⟨hphase, hphase', rfl⟩
      · exact ⟨_, _, _, _, WorkerLoop.Loops.calledBack hw hphase hhead, rfl⟩
      · refine ⟨g', .delivering k d', s.locals .worker, _, ?_, rfl⟩
        refine WorkerLoop.Loops.advanced ?_ ?_ ?_ (fun h => nomatch h)
        · rw [hw]
          exact decide_eq_false hphase
        · exact decide_eq_false hphase'
        · rw [hw]
          exact fun h => nomatch h

theorem proceed_move (h : proceed s t = some s') : Move s .library s' := by
  rcases proceed_cases h with ⟨k, rest, hstack, h⟩ | ⟨rfl, hstack, h⟩
  · exact proceedCall_move hstack h
  · obtain ⟨g, w, tls, log, hloops, rfl⟩ := proceedWorker_loops .worker h
    exact Move.looped hstack hloops

/-- A callback that returns to the worker's loop. -/
theorem callbackReturn_loops (u : Thread Tid) {ret : SysErr} (hstack : s.stack .worker = [])
    (h : callbackReturn s .worker ret = some s') :
    ∃ w tls, WorkerLoop.Loops u s.worker (s.locals .worker) (.resumes u) w tls ∧
      s' = { s with worker := w, locals := Function.update s.locals .worker tls } := by
  cases callbackReturn_cases h with
  | call hcall _ _ =>
      rw [hstack] at hcall
      cases hcall
  | worker _ hw hphase => exact ⟨_, _, WorkerLoop.Loops.resumed hw hphase, rfl⟩

theorem callbackReturn_move {ret : SysErr} (h : callbackReturn s t ret = some s') :
    Move s (.resumes t) s' := by
  cases callbackReturn_cases h with
  | call hstack hk hphase => exact Move.resumed hstack hk hphase
  | worker hstack _ _ =>
      obtain ⟨w, tls, hloops, heq⟩ := callbackReturn_loops .worker hstack h
      rw [heq]
      exact Move.looped hstack hloops

theorem threadCreate_move {ret : SysErr} (h : threadCreate s t ret = some s')
    (hworker : ret = .ok → s.worker = .absent) : Move s .library s' := by
  cases threadCreate_cases h with
  | failed hstack hk _ => exact Move.leave hstack (by rw [hk]; rfl)
  | created hstack hk hret => exact Move.created hstack hk (hworker hret)

theorem threadCreate_starting {ret : SysErr} (h : threadCreate s t ret = some s') :
    ∃ k, s.calls k = .starting := by
  cases threadCreate_cases h with
  | failed _ hk _ => exact ⟨_, hk⟩
  | created _ hk _ => exact ⟨_, hk⟩

theorem join_move {ret : Int} (h : join s t ret = some s') : Move s .library s' := by
  have hactive : ∀ k, s.calls k = .stopJoin → (s.calls k).status = .active := by
    intro k hk
    rw [hk]
    rfl
  cases join_cases h with
  | noThread hstack hk _ => exact Move.leave hstack (hactive _ hk)
  | itself hstack hk _ _ => exact Move.leave hstack (hactive _ hk)
  | failed hstack hk _ _ _ => exact Move.leave hstack (hactive _ hk)
  | joined hstack hk _ hself _ hw => exact Move.joined hstack hk hself hw

/-! ## Calls -/

theorem Call.Opens.status {tls : ThreadLocal} {call : Call} {st : CallState}
    (h : call.Opens tls st) : st.status = .active := by
  cases call with
  | start => rw [show st = .starting from h]; rfl
  | stop => rw [show st = .stopJoin from h]; rfl
  | subscribe eventId callback privateData outSubscription memory => exact h.elim
  | unsubscribe subscription =>
      cases subscription with
      | none => exact h.elim
      | some a => rcases h.2 with rfl | rfl <;> rfl
  | publishSync eventId data size =>
      obtain ⟨d, firstError, rfl, hphase⟩ := h
      rw [CallState.status, hphase, if_neg (by decide)]
  | publishAsync eventId data size memory => exact h.elim

/-- What a step does to one call. -/
theorem Move.calls {act : Act (Thread Tid)} (h : Move s act s') (k : K) :
    s'.calls k = s.calls k ∨ (s.calls k).Next (s'.calls k) := by
  have hupdate : ∀ k₀ st, (s.calls k₀).Next st →
      Function.update s.calls k₀ st k = s.calls k ∨
        (s.calls k).Next (Function.update s.calls k₀ st k) := by
    intro k₀ st hnext
    by_cases hkk : k = k₀
    · subst hkk
      rw [Function.update_self]
      exact Or.inr hnext
    · rw [Function.update_of_ne hkk]
      exact Or.inl rfl
  cases h with
  | waited => exact Or.inl rfl
  | answered hk => exact hupdate _ _ (by rw [hk]; exact .answered)
  | entered hk hopens => exact hupdate _ _ (by rw [hk]; exact .opened hopens)
  | advanced _ hadv => exact hupdate _ _ (.advanced hadv)
  | created _ hk _ => exact hupdate _ _ (by rw [hk]; exact .created)
  | joined _ hk _ _ => exact hupdate _ _ (by rw [hk]; exact .joined)
  | calledBack _ hk hphase _ => exact hupdate _ _ (by rw [hk]; exact .calledBack hphase)
  | resumed _ hk hphase => exact hupdate _ _ (by rw [hk]; exact .resumed hphase)
  | left _ hk => exact hupdate _ _ (.left hk)
  | looped _ _ => exact Or.inl rfl

/-- A call that was not made before is answered, or a thread has entered the bus with it. -/
theorem Move.opened {act : Act (Thread Tid)} (h : Move s act s') (hk : s.calls k = .notStarted) :
    s'.calls k = .notStarted ∨ (∃ call ret out, s'.calls k = .returned call ret out) ∨
      ∃ t call, act = .enters t ∧ Call.Opens (s.locals t) call (s'.calls k) := by
  have hupdate : ∀ k₀ st, s.calls k₀ ≠ .notStarted →
      Function.update s.calls k₀ st k = .notStarted := by
    intro k₀ st hk₀
    have hne : k ≠ k₀ := by
      rintro rfl
      exact hk₀ hk
    rw [Function.update_of_ne hne]
    exact hk
  cases h with
  | waited => exact Or.inl hk
  | @answered k₀ call ret out g log hk₀ =>
      by_cases hkk : k = k₀
      · subst hkk
        exact Or.inr (Or.inl ⟨call, ret, out, Function.update_self ..⟩)
      · exact Or.inl ((Function.update_of_ne hkk ..).trans hk)
  | @entered t k₀ st g log call hk₀ hopens =>
      by_cases hkk : k = k₀
      · subst hkk
        refine Or.inr (Or.inr ⟨t, call, rfl, ?_⟩)
        show Call.Opens (s.locals t) call (Function.update s.calls k st k)
        rw [Function.update_self]
        exact hopens
      · exact Or.inl ((Function.update_of_ne hkk ..).trans hk)
  | @advanced t k₀ rest st g _ hadv =>
      refine Or.inl (hupdate k₀ _ fun heq => ?_)
      rw [heq] at hadv
      cases hadv
  | created _ hk₀ _ => exact Or.inl (hupdate _ _ (by rw [hk₀]; exact fun h => nomatch h))
  | joined _ hk₀ _ _ => exact Or.inl (hupdate _ _ (by rw [hk₀]; exact fun h => nomatch h))
  | calledBack _ hk₀ _ _ => exact Or.inl (hupdate _ _ (by rw [hk₀]; exact fun h => nomatch h))
  | resumed _ hk₀ _ => exact Or.inl (hupdate _ _ (by rw [hk₀]; exact fun h => nomatch h))
  | @left t k₀ rest call ret g _ hk₀ =>
      refine Or.inl (hupdate k₀ _ fun heq => ?_)
      rw [heq] at hk₀
      cases hk₀
  | looped _ _ => exact Or.inl hk

end Sections

end Event
end AppCore
