/-
  AppCore.Event.Cases

  The sections of the bus case by case: what each of them finds, and the bus it leaves.  The
  step functions are taken apart here, and what is shown of all steps is shown of the cases.
-/

import AppCore.Event.System

namespace AppCore
namespace Event

variable {Tid K : Type*} [DecidableEq Tid] [DecidableEq K]

/-! ## The first section -/

/-- The first section of a call: answered at once, or the call goes on. -/
inductive BeginStep (s : Bus Tid K) (t : Thread Tid) (k : K) : Call → Bus Tid K → Prop
  | startRefused : s.globals.running = true →
      BeginStep s t k .start (s.setCall k (.returned .start .state none))
  | started : s.globals.running = false →
      BeginStep s t k .start (({ s with globals := { s.globals with
          queueHead := 0, queueCount := 0, stats := {}, running := true, accepting := true } } :
        Bus Tid K).enter t k .starting)
  /-- The bus does not run. -/
  | stopIdle : s.globals.running = false →
      BeginStep s t k .stop (({ s with globals := { s.globals with accepting := false } } :
        Bus Tid K).setCall k (.returned .stop .ok none))
  | stopping : s.globals.running = true →
      BeginStep s t k .stop
        (({ s with globals := { s.globals with accepting := false, running := false } } :
          Bus Tid K).enter t k .stopJoin)
  | subscribeRefused {eventId callback privateData outSubscription memory} {ret : SysErr} :
      ret ≠ .ok →
      BeginStep s t k (.subscribe eventId callback privateData outSubscription memory)
        (s.setCall k
          (.returned (.subscribe eventId callback privateData outSubscription memory) ret none))
  | subscribed {eventId callback privateData outSubscription memory} : memory = true →
      s.globals.accepting = true →
      (sysEventSubscribe eventId callback privateData outSubscription memory s.globals).1 = .ok →
      BeginStep s t k (.subscribe eventId callback privateData outSubscription memory)
        (({ s with globals := { s.globals with
            heap := Function.update s.globals.heap s.globals.nextId (some {
              eventId := eventId, callback := callback, privateData := privateData
              active := true, inFlight := 0 })
            nextId := s.globals.nextId + 1
            subscribers := s.globals.subscribers ++ [s.globals.nextId] } } : Bus Tid K).setCall k
          (.returned (.subscribe eventId callback privateData outSubscription memory) .ok
            (some s.globals.nextId)))
  | unsubscribeRefused {subscription} {ret : SysErr} : ret ≠ .ok →
      BeginStep s t k (.unsubscribe subscription)
        (s.setCall k (.returned (.unsubscribe subscription) ret none))
  | unsubscribed {a} : (s.locals t).callbackDepth = 0 →
      (s.locals t).currentSubscription ≠ some a → a ∈ s.globals.subscribers →
      BeginStep s t k (.unsubscribe (some a))
        (({ s with globals := { s.globals with
            heap := Function.update s.globals.heap a
              ((s.globals.heap a).map fun sub => { sub with active := false })
            subscribers := s.globals.subscribers.erase a } } : Bus Tid K).enter t k
          (if Heap.inFlight (Function.update s.globals.heap a
              ((s.globals.heap a).map fun sub => { sub with active := false })) a > 0
            then .unsubscribeWait a else .unsubscribeFree a))
  | syncRefused {eventId data size} {ret : SysErr} : ret ≠ .ok →
      BeginStep s t k (.publishSync eventId data size)
        (s.setCall k (.returned (.publishSync eventId data size) ret none))
  | syncAccepted {eventId data size subscribers heap} : s.globals.accepting = true →
      retainMatchingSubscribers eventId s.globals.subscribers s.globals.heap =
        (subscribers, heap) →
      BeginStep s t k (.publishSync eventId data size)
        (({ s with
            globals := { s.globals with
              heap := heap
              stats := { s.globals.stats with
                synchronousPublishCount := s.globals.stats.synchronousPublishCount + 1 } }
            syncLog := s.syncLog ++
              [(k, .accepted (SysEvent.make eventId data size) subscribers)] } :
          Bus Tid K).enter t k
            (.publishing ⟨SysEvent.make eventId data size, subscribers, .ready⟩ .ok))
  | asyncRefused {eventId data size memory} {ret : SysErr} : ret ≠ .ok →
      BeginStep s t k (.publishAsync eventId data size memory)
        (s.setCall k (.returned (.publishAsync eventId data size memory) ret none))
  | asyncFull {eventId data size memory} : eventQueueCapacity ≤ s.globals.queueCount →
      BeginStep s t k (.publishAsync eventId data size memory)
        (({ s with globals := { s.globals with
            stats := { s.globals.stats with
              queueFullCount := s.globals.stats.queueFullCount + 1 } } } : Bus Tid K).setCall k
          (.returned (.publishAsync eventId data size memory) .queueFull none))
  /-- Nobody is subscribed, and the queue entry is cleared again. -/
  | asyncUnmatched {eventId data size memory heap} : s.globals.accepting = true →
      s.globals.queueCount < eventQueueCapacity →
      retainMatchingSubscribers eventId s.globals.subscribers s.globals.heap = ([], heap) →
      (size > 0 → data ≠ none) →
      BeginStep s t k (.publishAsync eventId data size memory)
        { (({ s with globals := { s.globals with
              heap := heap
              queue := Function.update s.globals.queue
                ((s.globals.queueHead + s.globals.queueCount) % eventQueueCapacity) none
              stats := { s.globals.stats with
                asynchronousPublishCount := s.globals.stats.asynchronousPublishCount + 1 } } } :
            Bus Tid K).setCall k (.returned (.publishAsync eventId data size memory) .ok none)) with
          asyncLog := s.asyncLog ++
            [(k, .accepted (SysEvent.make eventId (asyncPayload data size) size) [])] }
  | asyncQueued {eventId data size memory subscribers heap} : s.globals.accepting = true →
      s.globals.queueCount < eventQueueCapacity →
      retainMatchingSubscribers eventId s.globals.subscribers s.globals.heap =
        (subscribers, heap) → subscribers ≠ [] → (size > 0 → data ≠ none) →
      BeginStep s t k (.publishAsync eventId data size memory)
        { (({ s with globals := { s.globals with
              heap := heap
              queue := Function.update s.globals.queue
                ((s.globals.queueHead + s.globals.queueCount) % eventQueueCapacity) (some {
                  eventId := eventId, data := asyncPayload data size, size := size
                  subscribers := subscribers, call := k })
              queueCount := s.globals.queueCount + 1
              stats := { s.globals.stats with
                asynchronousPublishCount := s.globals.stats.asynchronousPublishCount + 1
                queueHighWatermark :=
                  if s.globals.queueCount + 1 > s.globals.stats.queueHighWatermark then
                    s.globals.queueCount + 1
                  else s.globals.stats.queueHighWatermark } } } :
            Bus Tid K).setCall k (.returned (.publishAsync eventId data size memory) .ok none)) with
          asyncLog := s.asyncLog ++
            [(k, .accepted (SysEvent.make eventId (asyncPayload data size) size) subscribers)] }

section Cases

variable {s s' : Bus Tid K} {t : Thread Tid} {k : K}

theorem begin_subscribe_cases {eventId : UInt32} {callback privateData : Nat}
    {outSubscription memory : Bool}
    (h : begin s t k (.subscribe eventId callback privateData outSubscription memory) = some s') :
    BeginStep s t k (.subscribe eventId callback privateData outSubscription memory) s' := by
  simp only [begin] at h
  obtain rfl := Option.some.inj h
  generalize hr : sysEventSubscribe eventId callback privateData outSubscription memory
    s.globals = r
  have hret : (sysEventSubscribe eventId callback privateData outSubscription memory
      s.globals).1 = r.1 := congrArg Prod.fst hr
  unfold sysEventSubscribe at hr
  split at hr
  · subst hr
    exact .subscribeRefused SysErr.noConfusion
  split at hr
  · subst hr
    exact .subscribeRefused SysErr.noConfusion
  split at hr
  · subst hr
    exact .subscribeRefused SysErr.noConfusion
  rename_i hmem
  split at hr
  · subst hr
    exact .subscribeRefused SysErr.noConfusion
  rename_i hacc
  split at hr
  · subst hr
    exact .subscribeRefused SysErr.noConfusion
  split at hr
  · subst hr
    exact .subscribeRefused SysErr.noConfusion
  · subst hr
    exact .subscribed (by simpa using hmem) (by simpa using hacc) hret

theorem begin_unsubscribe_cases {subscription : Option Nat}
    (h : begin s t k (.unsubscribe subscription) = some s') :
    BeginStep s t k (.unsubscribe subscription) s' := by
  cases subscription with
  | none =>
      simp only [begin, sysEventUnsubscribe, Option.some.injEq] at h
      subst h
      exact .unsubscribeRefused SysErr.noConfusion
  | some a =>
      simp only [begin, sysEventUnsubscribe] at h
      by_cases hbusy : (s.locals t).callbackDepth > 0 ∨
          (s.locals t).currentSubscription = some a
      · simp only [if_pos hbusy, Option.some.injEq] at h
        subst h
        exact .unsubscribeRefused SysErr.noConfusion
      simp only [if_neg hbusy] at h
      by_cases hmem : a ∈ s.globals.subscribers
      · simp only [if_pos hmem, Option.some.injEq] at h
        subst h
        have hdepth : (s.locals t).callbackDepth = 0 :=
          Nat.eq_zero_of_not_pos fun hpos => hbusy (Or.inl hpos)
        exact .unsubscribed hdepth (fun hcur => hbusy (Or.inr hcur)) hmem
      · simp only [if_neg hmem, Option.some.injEq] at h
        subst h
        exact .unsubscribeRefused SysErr.noConfusion

theorem begin_publishSync_cases {eventId : UInt32} {data : Option (List UInt8)} {size : Nat}
    (h : begin s t k (.publishSync eventId data size) = some s') :
    BeginStep s t k (.publishSync eventId data size) s' := by
  simp only [begin, sysEventPublishSync] at h
  by_cases hbad : eventId = 0 ∨ (size > 0 ∧ data = none)
  · simp only [if_pos hbad, ne_eq, reduceCtorEq, not_false_eq_true, if_true,
      Option.some.injEq] at h
    subst h
    exact .syncRefused SysErr.noConfusion
  simp only [if_neg hbad] at h
  by_cases hacc : s.globals.accepting = false
  · simp only [if_pos hacc, ne_eq, reduceCtorEq, not_false_eq_true, if_true,
      Option.some.injEq] at h
    subst h
    exact .syncRefused SysErr.noConfusion
  · simp only [if_neg hacc, ne_eq, not_true_eq_false, if_false, Option.some.injEq] at h
    subst h
    exact .syncAccepted (by simpa using hacc) rfl

theorem begin_publishAsync_cases {eventId : UInt32} {data : Option (List UInt8)} {size : Nat}
    {memory : Bool} (h : begin s t k (.publishAsync eventId data size memory) = some s') :
    BeginStep s t k (.publishAsync eventId data size memory) s' := by
  simp only [begin, sysEventPublishAsync] at h
  by_cases hbad : eventId = 0 ∨ size > eventMaxPayload ∨ (size > 0 ∧ data = none)
  · simp only [if_pos hbad, ne_eq, reduceCtorEq, not_false_eq_true, if_true,
      Option.some.injEq] at h
    subst h
    exact .asyncRefused SysErr.noConfusion
  simp only [if_neg hbad] at h
  have hdata : size > 0 → data ≠ none := fun hsize hnone => hbad (Or.inr (Or.inr ⟨hsize, hnone⟩))
  by_cases hmem : size > 0 ∧ memory = false
  · simp only [if_pos hmem, ne_eq, reduceCtorEq, not_false_eq_true, if_true,
      Option.some.injEq] at h
    subst h
    exact .asyncRefused SysErr.noConfusion
  simp only [if_neg hmem] at h
  by_cases hacc : s.globals.accepting = false
  · simp only [if_pos hacc, ne_eq, reduceCtorEq, not_false_eq_true, if_true,
      Option.some.injEq] at h
    subst h
    exact .asyncRefused SysErr.noConfusion
  simp only [if_neg hacc] at h
  by_cases hfull : s.globals.queueCount ≥ eventQueueCapacity
  · simp only [if_pos hfull, ne_eq, reduceCtorEq, not_false_eq_true, if_true,
      Option.some.injEq] at h
    subst h
    exact .asyncFull hfull
  simp only [if_neg hfull] at h
  have hacc : s.globals.accepting = true := by simpa using hacc
  have hroom : s.globals.queueCount < eventQueueCapacity := Nat.lt_of_not_le hfull
  generalize hretain : retainMatchingSubscribers eventId s.globals.subscribers s.globals.heap = r
    at h
  obtain ⟨subscribers, heap⟩ := r
  by_cases hnone : subscribers = []
  · subst hnone
    simp only [if_true, ne_eq, not_true_eq_false, if_false, Option.some.injEq] at h
    subst h
    exact .asyncUnmatched hacc hroom hretain hdata
  · simp only [if_neg hnone, ne_eq, not_true_eq_false, if_false, Option.some.injEq] at h
    subst h
    exact .asyncQueued hacc hroom hretain hnone hdata

theorem begin_cases {call : Call} (h : begin s t k call = some s') : BeginStep s t k call s' := by
  cases call with
  | start =>
      simp only [begin, sysEventBusStart] at h
      by_cases hrun : s.globals.running = true
      · simp only [if_pos hrun, ne_eq, reduceCtorEq, not_false_eq_true, if_true,
          Option.some.injEq] at h
        subst h
        exact .startRefused hrun
      · simp only [if_neg hrun, ne_eq, not_true_eq_false, if_false, Option.some.injEq] at h
        subst h
        exact .started (by simpa using hrun)
  | stop =>
      simp only [begin, sysEventBusStop] at h
      by_cases hrun : s.globals.running = false
      · simp only [if_pos hrun, Option.some.injEq] at h
        subst h
        exact .stopIdle hrun
      · simp only [if_neg hrun, Option.some.injEq] at h
        subst h
        exact .stopping (by simpa using hrun)
  | subscribe eventId callback privateData outSubscription memory =>
      exact begin_subscribe_cases h
  | unsubscribe subscription => exact begin_unsubscribe_cases h
  | publishSync eventId data size => exact begin_publishSync_cases h
  | publishAsync eventId data size memory => exact begin_publishAsync_cases h

/-- A stop goes on to its join only on a bus that runs. -/
theorem running_of_begin_stop (h : begin s t k .stop = some s') (hk : s'.calls k = .stopJoin) :
    s.globals.running = true := by
  cases begin_cases h with
  | stopIdle _ =>
      have hover : CallState.returned .stop .ok none = .stopJoin :=
        (Function.update_self ..).symm.trans hk
      cases hover
  | stopping hrun => exact hrun

/-! ## The sections after it -/

/-- The next section of a loop over subscribers: the loop after it, and the callback it
    starts. -/
inductive AdvanceStep (d : Delivery) (g : Globals K) : Globals K → Delivery → Option Nat → Prop
  | starts {a rest} : d.phase = .ready → d.pending = a :: rest →
      AdvanceStep d g g { d with phase := .running } (some a)
  | counted : d.phase = .failed →
      AdvanceStep d g (countFailure g) { d with phase := .finishing } none
  | finished {a rest g'} : d.phase = .finishing → d.pending = a :: rest →
      finishCallback a g = some g' →
      AdvanceStep d g g' { d with pending := rest, phase := .ready } none

omit [DecidableEq K] in
theorem advance_cases {d d' : Delivery} {g g' : Globals K} {started : Option Nat}
    (h : d.advance g = some (g', d', started)) : AdvanceStep d g g' d' started := by
  unfold Delivery.advance at h
  split at h
  · rename_i hphase hpending
    obtain ⟨sub, -, heq⟩ := Option.map_eq_some_iff.mp h
    cases heq
    exact AdvanceStep.starts hphase hpending
  · rename_i hphase
    cases h
    exact AdvanceStep.counted hphase
  · rename_i hphase hpending
    obtain ⟨g₁, hfin, heq⟩ := Option.map_eq_some_iff.mp h
    cases heq
    exact AdvanceStep.finished hphase hpending hfin
  · cases h

/-- The section of `event_worker` at the head of its loop. -/
inductive HeadStep (g : Globals K) : Globals K × WorkerLoop K → Prop
  | waits : g.queueCount = 0 → g.running = true → HeadStep g (g, .waiting)
  | exits : g.queueCount = 0 → g.running = false → HeadStep g (g, .exited)
  | takes {work} : g.queueCount ≠ 0 → g.queue g.queueHead = some work →
      HeadStep g
        ({ g with
          queue := Function.update g.queue g.queueHead none
          queueHead := (g.queueHead + 1) % eventQueueCapacity
          queueCount := g.queueCount - 1 },
        .delivering work.call
          ⟨SysEvent.make work.eventId work.data work.size, work.subscribers, .ready⟩)
  /-- An entry in use is never cleared; `event_worker` does not check it. -/
  | cleared : g.queueCount ≠ 0 → g.queue g.queueHead = none →
      HeadStep g
        ({ g with
          queue := Function.update g.queue g.queueHead none
          queueHead := (g.queueHead + 1) % eventQueueCapacity
          queueCount := g.queueCount - 1 }, .waiting)

omit [DecidableEq K] in
theorem eventWorker_cases (g : Globals K) : HeadStep g (eventWorker g) := by
  unfold eventWorker
  by_cases hidle : g.queueCount = 0 ∧ g.running = true
  · rw [if_pos hidle]
    exact .waits hidle.1 hidle.2
  rw [if_neg hidle]
  by_cases hexit : g.queueCount = 0 ∧ g.running = false
  · rw [if_pos hexit]
    exact .exits hexit.1 hexit.2
  rw [if_neg hexit]
  have hpos : g.queueCount ≠ 0 := by
    intro hz
    cases hrun : g.running with
    | true => exact hidle ⟨hz, hrun⟩
    | false => exact hexit ⟨hz, hrun⟩
  dsimp only
  split
  · rename_i hwork
    exact .takes hpos hwork
  · rename_i hnone
    exact .cleared hpos hnone

/-- The next section of the call `k`. -/
inductive CallStep (s : Bus Tid K) (t : Thread Tid) (k : K) : Bus Tid K → Prop
  /-- The loop of `sys_event_publish_sync` is over. -/
  | published {d firstError} : s.calls k = .publishing d firstError → d.atEnd →
      CallStep s t k
        (s.leave t k (.publishSync d.event.id d.event.data d.event.size) firstError)
  | publishing {d firstError g d' started} : s.calls k = .publishing d firstError →
      d.advance s.globals = some (g, d', started) →
      CallStep s t k (({ s with
        globals := g
        locals := Function.update s.locals t ((s.locals t).enterCallback started)
        syncLog := s.syncLog ++ (startedObs d.event started).map fun o => (k, o) } :
      Bus Tid K).setCall k (.publishing d' firstError))
  | unsubscribeWaits {a} : s.calls k = .unsubscribeWait a → s.globals.heap.inFlight a > 0 →
      CallStep s t k s
  /-- Nobody is in the callback any more. -/
  | unsubscribed {a} : s.calls k = .unsubscribeWait a → ¬ s.globals.heap.inFlight a > 0 →
      CallStep s t k (s.setCall k (.unsubscribeFree a))
  | freed {a} : s.calls k = .unsubscribeFree a →
      CallStep s t k (({ s with globals := { s.globals with
        heap := Function.update s.globals.heap a none } } : Bus Tid K).leave t k
      (.unsubscribe (some a)) .ok)
  | stored : s.calls k = .storing →
      CallStep s t k (({ s with globals := { s.globals with thread := true } } :
        Bus Tid K).leave t k .start .ok)
  | stopWaits : s.calls k = .stopWait → hasInFlightCallbacks s.globals = true →
      CallStep s t k s
  | stopped : s.calls k = .stopWait → hasInFlightCallbacks s.globals = false →
      CallStep s t k (({ s with globals := { s.globals with
        heap := fun a => if a ∈ s.globals.subscribers then none else s.globals.heap a
        subscribers := [] } } : Bus Tid K).leave t k .stop .ok)

theorem proceedCall_cases (h : proceedCall s t k = some s') : CallStep s t k s' := by
  unfold proceedCall at h
  split at h
  · rename_i hk
    split at h
    · rename_i hend
      obtain rfl := Option.some.inj h
      exact CallStep.published hk hend
    · obtain ⟨⟨g, d', started⟩, hadv, rfl⟩ := Option.map_eq_some_iff.mp h
      exact CallStep.publishing hk hadv
  · rename_i hk
    split at h
    · rename_i hpos
      obtain rfl := Option.some.inj h
      exact CallStep.unsubscribeWaits hk hpos
    · rename_i hpos
      obtain rfl := Option.some.inj h
      exact CallStep.unsubscribed hk hpos
  · rename_i hk
    obtain rfl := Option.some.inj h
    exact CallStep.freed hk
  · rename_i hk
    obtain rfl := Option.some.inj h
    exact CallStep.stored hk
  · rename_i hk
    unfold stopLoop at h
    by_cases hwait : hasInFlightCallbacks s.globals = true
    · rw [if_pos hwait] at h
      obtain rfl := Option.some.inj h
      exact CallStep.stopWaits hk hwait
    · rw [if_neg hwait] at h
      obtain rfl := Option.some.inj h
      exact CallStep.stopped hk (Bool.eq_false_of_not_eq_true hwait)
  · cases h

/-- The next section of the worker's loop. -/
inductive WorkerStep (s : Bus Tid K) : Bus Tid K → Prop
  /-- At the head of its loop. -/
  | head : s.worker = .waiting →
      WorkerStep s { s with
        globals := (eventWorker s.globals).1, worker := (eventWorker s.globals).2 }
  | delivered {k d} : s.worker = .delivering k d → d.atEnd →
      WorkerStep s { s with worker := .waiting }
  | delivering {k d g d' started} : s.worker = .delivering k d →
      d.advance s.globals = some (g, d', started) →
      WorkerStep s { s with
        globals := g
        worker := .delivering k d'
        locals := Function.update s.locals .worker ((s.locals .worker).enterCallback started)
        asyncLog := s.asyncLog ++ (startedObs d.event started).map fun o => (k, o) }

omit [DecidableEq K] in
theorem proceedWorker_cases (h : proceedWorker s = some s') : WorkerStep s s' := by
  unfold proceedWorker at h
  split at h
  · rename_i hw
    rw [← Option.some.inj h]
    exact WorkerStep.head hw
  · rename_i hw
    split at h
    · rename_i hend
      obtain rfl := Option.some.inj h
      exact WorkerStep.delivered hw hend
    · obtain ⟨⟨g, d', started⟩, hadv, rfl⟩ := Option.map_eq_some_iff.mp h
      exact WorkerStep.delivering hw hadv
  · cases h

/-- The section belongs to the innermost call of the thread, or to the worker's loop. -/
theorem proceed_cases (h : proceed s t = some s') :
    (∃ k rest, s.stack t = k :: rest ∧ proceedCall s t k = some s') ∨
      (t = .worker ∧ s.stack .worker = [] ∧ proceedWorker s = some s') := by
  unfold proceed at h
  split at h
  · rename_i k rest hstack
    exact Or.inl ⟨k, rest, hstack, h⟩
  · rename_i hstack
    split at h
    · exact Or.inr ⟨rfl, hstack, h⟩
    · cases h

/-- A callback returns, to a publishing call or to the worker's loop. -/
inductive ReturnStep (s : Bus Tid K) : Thread Tid → SysErr → Bus Tid K → Prop
  | call {t k rest d firstError ret} : s.stack t = k :: rest →
      s.calls k = .publishing d firstError → d.phase = .running →
      ReturnStep s t ret (({ s with
        locals := Function.update s.locals t (s.locals t).leaveCallback
        syncLog := s.syncLog ++ [(k, .result ret)] } : Bus Tid K).setCall k
      (.publishing (d.returned ret) (if firstError = .ok ∧ ret ≠ .ok then ret else firstError)))
  | worker {k d ret} : s.stack .worker = [] → s.worker = .delivering k d → d.phase = .running →
      ReturnStep s .worker ret { s with
        worker := .delivering k (d.returned ret)
        locals := Function.update s.locals .worker (s.locals .worker).leaveCallback }

theorem callbackReturn_cases {ret : SysErr} (h : callbackReturn s t ret = some s') :
    ReturnStep s t ret s' := by
  unfold callbackReturn at h
  dsimp only at h
  split at h
  · rename_i hstack
    split at h
    · rename_i hk
      split at h
      · rename_i hphase
        obtain rfl := Option.some.inj h
        exact ReturnStep.call hstack hk hphase
      · cases h
    · cases h
  · rename_i hstack
    split at h
    · rename_i hw
      split at h
      · rename_i hphase
        obtain rfl := Option.some.inj h
        exact ReturnStep.worker hstack hw hphase
      · cases h
    · cases h

/-- `sys_thread_create` returns. -/
inductive CreateStep (s : Bus Tid K) (t : Thread Tid) (ret : SysErr) : Bus Tid K → Prop
  | failed {k rest} : s.stack t = k :: rest → s.calls k = .starting → ret ≠ .ok →
      CreateStep s t ret (({ s with globals := startFailed { s.globals with thread := false } } :
        Bus Tid K).leave t k .start ret)
  | created {k rest} : s.stack t = k :: rest → s.calls k = .starting → ret = .ok →
      CreateStep s t ret (({ s with
        globals := { s.globals with thread := false }
        worker := .waiting
        locals := Function.update s.locals .worker {} } : Bus Tid K).setCall k .storing)

theorem threadCreate_cases {ret : SysErr} (h : threadCreate s t ret = some s') :
    CreateStep s t ret s' := by
  unfold threadCreate at h
  dsimp only at h
  split at h
  · rename_i hstack
    split at h
    · rename_i hk
      split at h
      · rename_i hret
        obtain rfl := Option.some.inj h
        exact CreateStep.failed hstack hk hret
      · rename_i hret
        obtain rfl := Option.some.inj h
        exact CreateStep.created hstack hk (not_not.mp hret)
    · cases h
  · cases h

/-- `sys_thread_join` is called.  The worker is joined in the last case only. -/
inductive JoinStep (s : Bus Tid K) (t : Thread Tid) (ret : Int) : Bus Tid K → Prop
  | noThread {k rest} : s.stack t = k :: rest → s.calls k = .stopJoin →
      s.globals.thread = false → JoinStep s t ret (s.leave t k .stop .invalidParam)
  | itself {k rest} : s.stack t = k :: rest → s.calls k = .stopJoin → s.globals.thread = true →
      t = .worker → JoinStep s t ret (s.leave t k .stop .busy)
  | failed {k rest} : s.stack t = k :: rest → s.calls k = .stopJoin → s.globals.thread = true →
      t ≠ .worker → ret ≠ 0 → JoinStep s t ret (s.leave t k .stop (joinError ret))
  | joined {k rest} : s.stack t = k :: rest → s.calls k = .stopJoin → s.globals.thread = true →
      t ≠ .worker → ret = 0 → s.worker = .exited →
      JoinStep s t ret (({ s with
        globals := { s.globals with thread := false }, worker := .absent } :
      Bus Tid K).setCall k .stopWait)

theorem join_cases {ret : Int} (h : join s t ret = some s') : JoinStep s t ret s' := by
  unfold join at h
  split at h
  · rename_i hstack
    split at h
    · rename_i hk
      split at h
      · rename_i hthread
        obtain rfl := Option.some.inj h
        exact JoinStep.noThread hstack hk hthread
      rename_i hthread
      have hthread : s.globals.thread = true := Bool.eq_true_of_not_eq_false hthread
      split at h
      · rename_i hself
        obtain rfl := Option.some.inj h
        exact JoinStep.itself hstack hk hthread hself
      rename_i hself
      split at h
      · rename_i hret
        obtain rfl := Option.some.inj h
        exact JoinStep.failed hstack hk hthread hself hret
      rename_i hret
      split at h
      · rename_i hw
        obtain rfl := Option.some.inj h
        exact JoinStep.joined hstack hk hthread hself (not_not.mp hret) hw
      · cases h
    · cases h
  · cases h

end Cases

end Event
end AppCore
