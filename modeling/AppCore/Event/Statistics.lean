/-
  AppCore.Event.Statistics

  The counters of the bus against the steps of a run.  They are 64-bit and wrap, and a start
  that is not refused sets them to zero: what they stand for are the steps since then.
-/

import AppCore.Event.References
import AppCore.Lib.Counter
import Mathlib.Data.List.DropRight

namespace AppCore
namespace Event

variable {Tid K : Type*}

/-- `sys_event_get_stats`: what it stores in `*out_stats`, the `current_queue_depth` apart;
    nothing for a `NULL` pointer. -/
def sysEventGetStats (outStats : Bool) (g : Globals K) : Option (EventStats × Nat) :=
  if outStats = false then none else some (g.stats, g.queueCount)

/-! ## The steps that are counted -/

/-- A step with the states before and after it. -/
abbrev Transition (Tid K : Type*) := Bus Tid K × Action Tid K × Bus Tid K

/-- A start that is not refused. -/
def startsBus (x : Transition Tid K) : Bool :=
  match x.2.1 with
  | .call _ _ .start => decide ((sysEventBusStart x.1.globals).1 = .ok)
  | _ => false

/-- A synchronous publishing call that is accepted. -/
def publishesSync (x : Transition Tid K) : Bool :=
  match x.2.1 with
  | .call _ _ (.publishSync eventId data size) =>
    decide ((sysEventPublishSync eventId data size x.1.globals).1 = .ok)
  | _ => false

/-- An asynchronous publishing call that is answered by `ret`. -/
def answersAsync (ret : SysErr) (x : Transition Tid K) : Bool :=
  match x.2.1 with
  | .call _ k (.publishAsync eventId data size memory) =>
    decide ((sysEventPublishAsync k eventId data size memory x.1.globals).1 = ret)
  | _ => false

/-- A callback that returns an error. -/
def callbackFails (x : Transition Tid K) : Bool :=
  match x.2.1 with
  | .callbackReturn _ ret => decide (ret ≠ .ok)
  | _ => false

/-- The loop over subscribers of a call. -/
def CallState.delivery : CallState → Option Delivery
  | .publishing d _ => some d
  | _ => none

/-- The loop over subscribers of the worker. -/
def WorkerLoop.delivery : WorkerLoop K → Option Delivery
  | .delivering _ d => some d
  | _ => none

/-- The loop over subscribers that a thread is in. -/
def Bus.deliveryOf (s : Bus Tid K) (t : Thread Tid) : Option Delivery :=
  match s.stack t with
  | k :: _ => (s.calls k).delivery
  | [] =>
    match t with
    | .worker => s.worker.delivery
    | .caller _ => none

/-- The section in which a loop counts the failure of its callback. -/
def countsFailure (x : Transition Tid K) : Bool :=
  match x.2.1 with
  | .proceed t => decide ((x.1.deliveryOf t).map Delivery.phase = some .failed)
  | _ => false

/-- The steps since the bus was started. -/
def session (p : List (Transition Tid K)) : List (Transition Tid K) :=
  p.rtakeWhile fun x => !startsBus x

/-! ## One step -/

/-- A step that no counter counts. -/
structure Uncounted (x : Transition Tid K) : Prop where
  synchronous : publishesSync x = false
  asynchronous : answersAsync .ok x = false
  queueFull : answersAsync .queueFull x = false
  failure : countsFailure x = false

/-- What a step adds to the counters. -/
structure Tallied (x : Transition Tid K) : Prop where
  synchronous : x.2.2.globals.stats.synchronousPublishCount =
    x.1.globals.stats.synchronousPublishCount + UInt64.ofNat (publishesSync x).toNat
  asynchronous : x.2.2.globals.stats.asynchronousPublishCount =
    x.1.globals.stats.asynchronousPublishCount + UInt64.ofNat (answersAsync .ok x).toNat
  queueFull : x.2.2.globals.stats.queueFullCount =
    x.1.globals.stats.queueFullCount + UInt64.ofNat (answersAsync .queueFull x).toNat
  failure : x.2.2.globals.stats.callbackFailureCount =
    x.1.globals.stats.callbackFailureCount + UInt64.ofNat (countsFailure x).toNat
  watermark : x.2.2.globals.stats.queueHighWatermark =
    max x.1.globals.stats.queueHighWatermark x.2.2.globals.queueCount

/-- The queue has never been longer than the watermark says. -/
def Globals.Marked (g : Globals K) : Prop := g.queueCount ≤ g.stats.queueHighWatermark

section Step

variable {s s' : Bus Tid K} {e : Action Tid K} {g g' : Globals K}

theorem Uncounted.tallied (h : Uncounted (s, e, s')) (hmark : s.globals.Marked)
    (hstats : s'.globals.stats = s.globals.stats)
    (hcount : s'.globals.queueCount ≤ s.globals.queueCount) : Tallied (s, e, s') where
  synchronous := by
    rw [h.synchronous, hstats]
    exact (UInt64.add_zero _).symm
  asynchronous := by
    rw [h.asynchronous, hstats]
    exact (UInt64.add_zero _).symm
  queueFull := by
    rw [h.queueFull, hstats]
    exact (UInt64.add_zero _).symm
  failure := by
    rw [h.failure, hstats]
    exact (UInt64.add_zero _).symm
  watermark := by
    have hle : s'.globals.queueCount ≤ s.globals.stats.queueHighWatermark := hcount.trans hmark
    rw [hstats, max_eq_left hle]

/-- An answer that a counter does not count. -/
theorem unanswered {ret ret' : SysErr} (h : ret ≠ ret') (count : UInt64) :
    count = count + UInt64.ofNat (decide (ret = ret')).toNat := by
  rw [decide_eq_false h]
  exact (UInt64.add_zero count).symm

theorem publishSync_stats (eventId : UInt32) (data : Option (List UInt8)) (size : Nat)
    (hg : (sysEventPublishSync eventId data size g).2.1 = g') :
    g'.stats = { g.stats with
      synchronousPublishCount := g.stats.synchronousPublishCount + UInt64.ofNat
        (decide ((sysEventPublishSync eventId data size g).1 = .ok)).toNat } ∧
    g'.queueCount = g.queueCount := by
  subst hg
  unfold sysEventPublishSync
  split
  · have hnone : SysErr.invalidParam ≠ .ok := SysErr.noConfusion
    exact ⟨by rw [← unanswered hnone], rfl⟩
  split
  · have hnone : SysErr.closed ≠ .ok := SysErr.noConfusion
    exact ⟨by rw [← unanswered hnone], rfl⟩
  · exact ⟨rfl, rfl⟩

theorem publishAsync_stats (k : K) (eventId : UInt32) (data : Option (List UInt8)) (size : Nat)
    (memory : Bool) (hmark : g.Marked)
    (hg : (sysEventPublishAsync k eventId data size memory g).2.1 = g') :
    g'.stats.synchronousPublishCount = g.stats.synchronousPublishCount ∧
    g'.stats.asynchronousPublishCount = g.stats.asynchronousPublishCount + UInt64.ofNat
      (decide ((sysEventPublishAsync k eventId data size memory g).1 = .ok)).toNat ∧
    g'.stats.queueFullCount = g.stats.queueFullCount + UInt64.ofNat
      (decide ((sysEventPublishAsync k eventId data size memory g).1 = .queueFull)).toNat ∧
    g'.stats.callbackFailureCount = g.stats.callbackFailureCount ∧
    g'.stats.queueHighWatermark = max g.stats.queueHighWatermark g'.queueCount := by
  have hmax : max g.stats.queueHighWatermark g.queueCount = g.stats.queueHighWatermark :=
    max_eq_left hmark
  subst hg
  unfold sysEventPublishAsync
  split
  · exact ⟨rfl, unanswered SysErr.noConfusion _, unanswered SysErr.noConfusion _, rfl, hmax.symm⟩
  split
  · exact ⟨rfl, unanswered SysErr.noConfusion _, unanswered SysErr.noConfusion _, rfl, hmax.symm⟩
  split
  · exact ⟨rfl, unanswered SysErr.noConfusion _, unanswered SysErr.noConfusion _, rfl, hmax.symm⟩
  split
  · exact ⟨rfl, unanswered SysErr.noConfusion _, rfl, rfl, hmax.symm⟩
  dsimp only
  split
  · exact ⟨rfl, rfl, unanswered SysErr.noConfusion _, rfl, hmax.symm⟩
  · refine ⟨rfl, rfl, unanswered SysErr.noConfusion _, rfl, ?_⟩
    dsimp only
    split
    · omega
    · omega

variable [DecidableEq Tid] [DecidableEq K] {t : Thread Tid} {k : K} {rest : List K}
  {d d' : Delivery} {firstError : SysErr} {started : Option Nat}

theorem begin_publishSync_globals {eventId : UInt32} {data : Option (List UInt8)} {size : Nat}
    (h : begin s t k (.publishSync eventId data size) = some s') :
    s'.globals = (sysEventPublishSync eventId data size s.globals).2.1 := by
  simp only [begin] at h
  split at h
  · obtain rfl := Option.some.inj h
    rfl
  · obtain rfl := Option.some.inj h
    rfl

theorem begin_publishAsync_globals {eventId : UInt32} {data : Option (List UInt8)} {size : Nat}
    {memory : Bool} (h : begin s t k (.publishAsync eventId data size memory) = some s') :
    s'.globals = (sysEventPublishAsync k eventId data size memory s.globals).2.1 := by
  simp only [begin] at h
  split at h
  · obtain rfl := Option.some.inj h
    rfl
  · obtain rfl := Option.some.inj h
    rfl

theorem begin_tallied {call : Call} (hmark : s.globals.Marked)
    (hstart : startsBus (s, .call t k call, s') = false) (h : begin s t k call = some s') :
    Tallied (s, .call t k call, s') := by
  have hquiet := @Uncounted.tallied Tid K s s' (.call t k call)
  cases call with
  | start =>
      cases begin_cases h with
      | startRefused _ => exact hquiet ⟨rfl, rfl, rfl, rfl⟩ hmark rfl (Nat.le_refl _)
      | started hrun =>
          -- such a start is not refused
          have hok : (sysEventBusStart s.globals).1 = .ok := by
            rw [sysEventBusStart, hrun]
            rfl
          exact absurd hok (of_decide_eq_false hstart)
  | stop =>
      cases begin_cases h with
      | stopIdle _ => exact hquiet ⟨rfl, rfl, rfl, rfl⟩ hmark rfl (Nat.le_refl _)
      | stopping _ => exact hquiet ⟨rfl, rfl, rfl, rfl⟩ hmark rfl (Nat.le_refl _)
  | subscribe eventId callback privateData outSubscription memory =>
      cases begin_cases h with
      | subscribeRefused _ => exact hquiet ⟨rfl, rfl, rfl, rfl⟩ hmark rfl (Nat.le_refl _)
      | subscribed _ _ _ => exact hquiet ⟨rfl, rfl, rfl, rfl⟩ hmark rfl (Nat.le_refl _)
  | unsubscribe subscription =>
      cases begin_cases h with
      | unsubscribeRefused _ => exact hquiet ⟨rfl, rfl, rfl, rfl⟩ hmark rfl (Nat.le_refl _)
      | unsubscribed _ _ _ => exact hquiet ⟨rfl, rfl, rfl, rfl⟩ hmark rfl (Nat.le_refl _)
  | publishSync eventId data size =>
      obtain ⟨hstats, hcount⟩ :=
        publishSync_stats eventId data size (begin_publishSync_globals h).symm
      constructor
      · rw [hstats]
        rfl
      · rw [hstats]
        exact (UInt64.add_zero _).symm
      · rw [hstats]
        exact (UInt64.add_zero _).symm
      · rw [hstats]
        exact (UInt64.add_zero _).symm
      · rw [hstats, hcount]
        exact (max_eq_left hmark).symm
  | publishAsync eventId data size memory =>
      obtain ⟨hsync, hasync, hfull, hfailure, hwatermark⟩ :=
        publishAsync_stats k eventId data size memory hmark (begin_publishAsync_globals h).symm
      refine ⟨?_, hasync, hfull, ?_, hwatermark⟩
      · rw [hsync]
        exact (UInt64.add_zero _).symm
      · rw [hfailure]
        exact (UInt64.add_zero _).symm

/-! ## Loops over subscribers -/

omit [DecidableEq Tid] [DecidableEq K] in
theorem Bus.deliveryOf_call (hstack : s.stack t = k :: rest) :
    s.deliveryOf t = (s.calls k).delivery := by
  unfold Bus.deliveryOf
  rw [hstack]

omit [DecidableEq Tid] [DecidableEq K] in
theorem Bus.deliveryOf_worker (hstack : s.stack .worker = []) :
    s.deliveryOf .worker = s.worker.delivery := by
  unfold Bus.deliveryOf
  rw [hstack]

omit [DecidableEq Tid] [DecidableEq K] in
theorem countsFailure_of_delivery (hd : s.deliveryOf t = some d) :
    countsFailure (s, .proceed t, s') = decide (d.phase = .failed) := by
  simp only [countsFailure, hd, Option.map_some, Option.some.injEq]

omit [DecidableEq Tid] [DecidableEq K] in
theorem uncounted_of_phase (hd : s.deliveryOf t = some d) (hphase : d.phase ≠ .failed) :
    Uncounted (s, .proceed t, s') := by
  refine ⟨rfl, rfl, rfl, ?_⟩
  rw [countsFailure_of_delivery hd, decide_eq_false hphase]

omit [DecidableEq Tid] [DecidableEq K] in
theorem uncounted_of_none (hd : s.deliveryOf t = none) : Uncounted (s, .proceed t, s') := by
  refine ⟨rfl, rfl, rfl, ?_⟩
  simp only [countsFailure, hd, Option.map_none, reduceCtorEq, decide_false]

omit [DecidableEq K] [DecidableEq Tid] in
theorem finishCallback_stats {a : Nat} (h : finishCallback a g = some g') :
    g'.stats = g.stats ∧ g'.queueCount = g.queueCount := by
  obtain ⟨sub, -, rfl⟩ := Option.map_eq_some_iff.mp h
  exact ⟨rfl, rfl⟩

omit [DecidableEq Tid] [DecidableEq K] in
theorem Delivery.atEnd.ne_failed (h : d.atEnd) : d.phase ≠ .failed := by
  rw [h.1]
  decide

omit [DecidableEq Tid] [DecidableEq K] in
theorem advance_tallied (hmark : s.globals.Marked) (hd : s.deliveryOf t = some d)
    (h : d.advance s.globals = some (s'.globals, d', started)) :
    Tallied (s, .proceed t, s') := by
  generalize hg : s'.globals = g at h
  cases advance_cases h with
  | starts hphase _ =>
      have hne : d.phase ≠ .failed := by
        rw [hphase]
        decide
      refine (uncounted_of_phase hd hne).tallied hmark ?_ ?_
      · rw [hg]
      · rw [hg]
  | counted hphase =>
      have hcounts : countsFailure (s, .proceed t, s') = true := by
        rw [countsFailure_of_delivery hd, decide_eq_true hphase]
      constructor
      · rw [hg]
        exact (UInt64.add_zero _).symm
      · rw [hg]
        exact (UInt64.add_zero _).symm
      · rw [hg]
        exact (UInt64.add_zero _).symm
      · rw [hg, hcounts]
        rfl
      · rw [hg]
        exact (max_eq_left hmark).symm
  | finished hphase _ hfin =>
      have hne : d.phase ≠ .failed := by
        rw [hphase]
        decide
      obtain ⟨hstats, hcount⟩ := finishCallback_stats hfin
      refine (uncounted_of_phase hd hne).tallied hmark ?_ ?_
      · rw [hg, hstats]
      · rw [hg, hcount]

theorem proceedCall_tallied (hmark : s.globals.Marked) (hstack : s.stack t = k :: rest)
    (h : proceedCall s t k = some s') : Tallied (s, .proceed t, s') := by
  have hd : s.deliveryOf t = (s.calls k).delivery := s.deliveryOf_call hstack
  have hquiet : (s.calls k).delivery = none → s'.globals.stats = s.globals.stats →
      s'.globals.queueCount ≤ s.globals.queueCount → Tallied (s, .proceed t, s') :=
    fun hnone => (uncounted_of_none (hd.trans hnone)).tallied hmark
  cases proceedCall_cases h with
  | @published d firstError hk hend =>
      have hloop : s.deliveryOf t = some d := by
        rw [hd, hk]
        rfl
      exact (uncounted_of_phase hloop hend.ne_failed).tallied hmark rfl (Nat.le_refl _)
  | @publishing d firstError g d' started hk hadv =>
      have hloop : s.deliveryOf t = some d := by
        rw [hd, hk]
        rfl
      exact advance_tallied hmark hloop hadv
  | unsubscribeWaits hk _ => exact hquiet (by rw [hk]; rfl) rfl (Nat.le_refl _)
  | unsubscribed hk _ => exact hquiet (by rw [hk]; rfl) rfl (Nat.le_refl _)
  | freed hk => exact hquiet (by rw [hk]; rfl) rfl (Nat.le_refl _)
  | stored hk => exact hquiet (by rw [hk]; rfl) rfl (Nat.le_refl _)
  | stopWaits hk _ => exact hquiet (by rw [hk]; rfl) rfl (Nat.le_refl _)
  | stopped hk _ => exact hquiet (by rw [hk]; rfl) rfl (Nat.le_refl _)

omit [DecidableEq K] [DecidableEq Tid] in
theorem eventWorker_stats (g : Globals K) :
    (eventWorker g).1.stats = g.stats ∧ (eventWorker g).1.queueCount ≤ g.queueCount ∧
      ∀ k d, (eventWorker g).2 = .delivering k d → d.phase = .ready := by
  generalize hr : eventWorker g = r
  have hcases := eventWorker_cases g
  rw [hr] at hcases
  cases hcases with
  | waits _ _ => exact ⟨rfl, Nat.le_refl _, fun _ _ h => (by cases h)⟩
  | exits _ _ => exact ⟨rfl, Nat.le_refl _, fun _ _ h => (by cases h)⟩
  | takes _ _ => exact ⟨rfl, Nat.sub_le _ _, fun _ _ h => (by cases h; rfl)⟩
  | cleared _ _ => exact ⟨rfl, Nat.sub_le _ _, fun _ _ h => (by cases h)⟩

omit [DecidableEq K] in
theorem proceedWorker_tallied (hmark : s.globals.Marked) (hstack : s.stack .worker = [])
    (h : proceedWorker s = some s') : Tallied (s, .proceed .worker, s') := by
  have hd : s.deliveryOf .worker = s.worker.delivery := s.deliveryOf_worker hstack
  cases proceedWorker_cases h with
  | head hw =>
      have hnone : s.deliveryOf .worker = none := by
        rw [hd, hw]
        rfl
      obtain ⟨hstats, hcount, -⟩ := eventWorker_stats s.globals
      exact (uncounted_of_none hnone).tallied hmark hstats hcount
  | @delivered k d hw hend =>
      have hloop : s.deliveryOf .worker = some d := by
        rw [hd, hw]
        rfl
      exact (uncounted_of_phase hloop hend.ne_failed).tallied hmark rfl (Nat.le_refl _)
  | @delivering k d g d' started hw hadv =>
      have hloop : s.deliveryOf .worker = some d := by
        rw [hd, hw]
        rfl
      exact advance_tallied hmark hloop hadv

/-- Every step but a start adds what it counts. -/
theorem next_tallied (hmark : s.globals.Marked) (hstart : startsBus (s, e, s') = false)
    (h : next s e = some s') : Tallied (s, e, s') := by
  cases e with
  | call t k call =>
      obtain ⟨-, hbegin⟩ := Option.ite_none_right_eq_some.mp h
      exact begin_tallied hmark hstart hbegin
  | proceed t =>
      rcases proceed_cases h with ⟨k, rest, hstack, hcall⟩ | ⟨rfl, hstack, hworker⟩
      · exact proceedCall_tallied hmark hstack hcall
      · exact proceedWorker_tallied hmark hstack hworker
  | callbackReturn t ret =>
      have hnone : Uncounted (s, .callbackReturn t ret, s') := ⟨rfl, rfl, rfl, rfl⟩
      cases callbackReturn_cases h with
      | call _ _ _ => exact hnone.tallied hmark rfl (Nat.le_refl _)
      | worker _ _ _ => exact hnone.tallied hmark rfl (Nat.le_refl _)
  | threadCreate t ret =>
      have hnone : Uncounted (s, .threadCreate t ret, s') := ⟨rfl, rfl, rfl, rfl⟩
      cases threadCreate_cases h with
      | failed _ _ _ => exact hnone.tallied hmark rfl (Nat.le_refl _)
      | created _ _ _ => exact hnone.tallied hmark rfl (Nat.le_refl _)
  | join t ret =>
      have hnone : Uncounted (s, .join t ret, s') := ⟨rfl, rfl, rfl, rfl⟩
      cases join_cases h with
      | noThread _ _ _ => exact hnone.tallied hmark rfl (Nat.le_refl _)
      | itself _ _ _ _ => exact hnone.tallied hmark rfl (Nat.le_refl _)
      | failed _ _ _ _ _ => exact hnone.tallied hmark rfl (Nat.le_refl _)
      | joined _ _ _ _ _ _ => exact hnone.tallied hmark rfl (Nat.le_refl _)

/-- A start that is not refused clears the counters and the queue. -/
theorem next_started (hstart : startsBus (s, e, s') = true) (h : next s e = some s') :
    s'.globals.stats = {} ∧ s'.globals.queueCount = 0 := by
  cases e with
  | call t k call =>
      obtain ⟨-, hbegin⟩ := Option.ite_none_right_eq_some.mp h
      cases call with
      | start =>
          cases begin_cases hbegin with
          | startRefused hrun =>
              have hret : (sysEventBusStart s.globals).1 = .state := by
                rw [sysEventBusStart, if_pos hrun]
              have hok := of_decide_eq_true hstart
              rw [hret] at hok
              cases hok
          | started _ => exact ⟨rfl, rfl⟩
      | _ => cases hstart
  | _ => cases hstart

end Step

/-! ## Whole runs -/

/-- The counters are numbers of steps, and the watermark is the greatest depth of the queue. -/
structure EventStats.Counts (stats : EventStats) (q : List (Transition Tid K)) : Prop where
  synchronous : stats.synchronousPublishCount = UInt64.ofNat (q.countP publishesSync)
  asynchronous : stats.asynchronousPublishCount = UInt64.ofNat (q.countP (answersAsync .ok))
  queueFull : stats.queueFullCount = UInt64.ofNat (q.countP (answersAsync .queueFull))
  failure : stats.callbackFailureCount = UInt64.ofNat (q.countP countsFailure)
  watermark : stats.queueHighWatermark =
    (q.map fun x => x.2.2.globals.queueCount).foldl max 0

theorem EventStats.counts_nil : EventStats.Counts {} ([] : List (Transition Tid K)) :=
  ⟨rfl, rfl, rfl, rfl, rfl⟩

/-- One more step that is counted or not. -/
theorem ofNat_countP_snoc (f : Transition Tid K → Bool) (q : List (Transition Tid K))
    (x : Transition Tid K) {n : UInt64} (h : n = UInt64.ofNat (q.countP f)) :
    n + UInt64.ofNat (f x).toNat = UInt64.ofNat ((q ++ [x]).countP f) := by
  have hone : [x].countP f = (f x).toNat := by
    rw [List.countP_singleton]
    cases f x <;> rfl
  rw [List.countP_append, hone, UInt64.ofNat_add, h]

theorem EventStats.Counts.snoc {x : Transition Tid K} {q : List (Transition Tid K)}
    (h : x.1.globals.stats.Counts q) (hx : Tallied x) :
    x.2.2.globals.stats.Counts (q ++ [x]) where
  synchronous := by rw [hx.synchronous, ofNat_countP_snoc _ q x h.synchronous]
  asynchronous := by rw [hx.asynchronous, ofNat_countP_snoc _ q x h.asynchronous]
  queueFull := by rw [hx.queueFull, ofNat_countP_snoc _ q x h.queueFull]
  failure := by rw [hx.failure, ofNat_countP_snoc _ q x h.failure]
  watermark := by
    rw [hx.watermark, h.watermark, List.map_append, List.foldl_append]
    rfl

section Runs

variable [DecidableEq Tid] [DecidableEq K] {s : Bus Tid K} {p : List (Transition Tid K)}

/-- The counters, with the bounds of the watermark. -/
theorem path_counts (h : (eventMachine Tid K).Path p s) :
    s.globals.stats.Counts (session p) ∧ s.globals.Marked ∧
      s.globals.stats.queueHighWatermark ≤ eventQueueCapacity := by
  apply h.invariant (I := fun p s => s.globals.stats.Counts (session p) ∧ s.globals.Marked ∧
    s.globals.stats.queueHighWatermark ≤ eventQueueCapacity)
  · intro s hs
    obtain rfl : s = Bus.zero Tid K := hs
    exact ⟨EventStats.counts_nil, Nat.le_refl 0, Nat.zero_le _⟩
  · intro p u e v hp hu hstep
    obtain ⟨hcounts, hmark, hbound⟩ := hu
    by_cases hstart : startsBus (u, e, v) = true
    · -- the counters begin anew
      obtain ⟨hstats, hcount⟩ := next_started hstart hstep.1
      have hsession : session (p ++ [(u, e, v)]) = [] :=
        List.rtakeWhile_concat_neg _ _ _ (by simp [hstart])
      refine ⟨?_, ?_, ?_⟩
      · rw [hsession, hstats]
        exact EventStats.counts_nil
      · rw [Globals.Marked, hcount]
        exact Nat.zero_le _
      · rw [hstats]
        exact Nat.zero_le _
    · have hstart := Bool.eq_false_of_not_eq_true hstart
      have htallied := next_tallied hmark hstart hstep.1
      have hsession : session (p ++ [(u, e, v)]) = session p ++ [(u, e, v)] :=
        List.rtakeWhile_concat_pos _ _ _ (by simp [hstart])
      have hsound : v.Sound := sound_of_reachable (hp.reachable.step hstep)
      refine ⟨?_, ?_, ?_⟩
      · rw [hsession]
        exact hcounts.snoc htallied
      · rw [Globals.Marked, htallied.watermark]
        exact Nat.le_max_right _ _
      · rw [htallied.watermark]
        exact Nat.max_le.mpr ⟨hbound, hsound.shaped.queueOk.count_le⟩

/-- What `sys_event_get_stats` hands out: the counters count the calls that were accepted, the
    calls that found the queue full and the failures that were counted since the bus was started,
    and the watermark is the greatest depth that the queue has had since then. -/
theorem bus_statistics (h : (eventMachine Tid K).Path p s) {stats : EventStats} {depth : Nat}
    (hget : sysEventGetStats true s.globals = some (stats, depth)) :
    stats.Counts (session p) ∧ depth ≤ stats.queueHighWatermark ∧
      stats.queueHighWatermark ≤ eventQueueCapacity := by
  obtain ⟨rfl, rfl⟩ := Prod.mk.inj (Option.some.inj hget)
  exact path_counts h

/-- A callback of a synchronous publish fails, and nobody receives an asynchronous one. -/
def failingRun : List (Action Unit (Fin 4)) :=
  [.call (.caller ()) 0 .start, .threadCreate (.caller ()) .ok, .proceed (.caller ()),
    .call (.caller ()) 1 (.subscribe 7 5 0 true true),
    .call (.caller ()) 2 (.publishSync 7 none 0), .proceed (.caller ()),
    .callbackReturn (.caller ()) .io, .proceed (.caller ()), .proceed (.caller ()),
    .proceed (.caller ()), .call (.caller ()) 3 (.publishAsync 8 none 0 true)]

/-- Every beginning of it that can happen is a run of the bus. -/
theorem failingRun_run {n : Nat} {s : Bus Unit (Fin 4)}
    (h : Machine.exec next (Bus.zero Unit (Fin 4)) (failingRun.take (n + 1)) = some s) :
    (eventMachine Unit (Fin 4)).Run (Bus.zero Unit (Fin 4)) (failingRun.take (n + 1)) s := by
  have hidle : (Bus.zero Unit (Fin 4)).Idle :=
    ⟨rfl, rfl, fun k => ⟨CallState.noConfusion, CallState.noConfusion⟩, rfl, rfl⟩
  refine Machine.Run.of_exec_along h ⟨Or.inr hidle, fun _ _ => ?_⟩
  refine Machine.Along.of_forall fun e he s => ?_
  have hstart : ∀ e ∈ failingRun.tail, ∀ s, StartsIdle s e := by simp [failingRun, StartsIdle]
  exact hstart e (List.mem_of_mem_take he) s

theorem bus_statistics_failing :
    ∃ (p : List (Transition Unit (Fin 4))) (stats : EventStats),
      stats.synchronousPublishCount = 1 ∧ stats.asynchronousPublishCount = 1 ∧
        stats.callbackFailureCount = 1 ∧ stats.Counts (session p) := by
  have hexec : Machine.exec next (Bus.zero Unit (Fin 4)) (failingRun.take 11) = some _ := rfl
  obtain ⟨p, hpath, -⟩ := (failingRun_run hexec).exists_path rfl
  exact ⟨p, _, rfl, rfl, rfl, (bus_statistics hpath rfl).1⟩

end Runs

/-! ## Failures -/

/-- A loop that is about to count the failure of its callback. -/
def Delivery.failing (d : Delivery) : Nat := if d.phase = .failed then 1 else 0

def CallState.failing (st : CallState) : Nat := (st.delivery.map Delivery.failing).getD 0

def WorkerLoop.failing (w : WorkerLoop K) : Nat := (w.delivery.map Delivery.failing).getD 0

theorem Delivery.failing_of_ne {d : Delivery} (h : d.phase ≠ .failed) : d.failing = 0 := if_neg h

theorem Delivery.failing_of_failed {d : Delivery} (h : d.phase = .failed) : d.failing = 1 :=
  if_pos h

theorem Delivery.failing_le (d : Delivery) : d.failing ≤ 1 := by
  unfold Delivery.failing
  split <;> omega

/-- The failures in a run: each has been counted, or is about to be. -/
structure Bus.FailuresCounted (s : Bus Tid K) (p : List (Transition Tid K)) : Prop where
  finite : (Function.support fun k => (s.calls k).failing).Finite
  account : p.countP callbackFails =
    p.countP countsFailure + s.worker.failing + ∑ᶠ k, (s.calls k).failing

section Failures

variable [DecidableEq Tid] [DecidableEq K] {s s' : Bus Tid K} {e : Action Tid K}
  {p : List (Transition Tid K)} {k : K} {st : CallState} {d : Delivery} {t : Thread Tid}
  {rest : List K} {ret : SysErr}

omit [DecidableEq Tid] [DecidableEq K] in
theorem countP_snoc (f : Transition Tid K → Bool) (p : List (Transition Tid K))
    (x : Transition Tid K) : (p ++ [x]).countP f = p.countP f + (f x).toNat := by
  rw [List.countP_append, List.countP_singleton]
  cases f x <;> rfl

omit [DecidableEq Tid] in
/-- One call and the worker move. -/
theorem Bus.FailuresCounted.move (h : s.FailuresCounted p)
    (hcalls : s'.calls = Function.update s.calls k st)
    (hsum : (callbackFails (s, e, s')).toNat + s.worker.failing + (s.calls k).failing =
      (countsFailure (s, e, s')).toNat + s'.worker.failing + st.failing) :
    s'.FailuresCounted (p ++ [(s, e, s')]) := by
  have hupdate := Family.finsum_update_add (f := fun _ (st : CallState) => st.failing) h.finite k st
  have haccount := h.account
  constructor
  · rw [hcalls]
    exact Family.support_update_finite (f := fun _ (st : CallState) => st.failing) h.finite k st
  · rw [countP_snoc, countP_snoc, hcalls]
    omega

omit [DecidableEq Tid] [DecidableEq K] in
/-- The worker moves. -/
theorem Bus.FailuresCounted.moveWorker (h : s.FailuresCounted p) (hcalls : s'.calls = s.calls)
    (hsum : (callbackFails (s, e, s')).toNat + s.worker.failing =
      (countsFailure (s, e, s')).toNat + s'.worker.failing) :
    s'.FailuresCounted (p ++ [(s, e, s')]) := by
  have haccount := h.account
  constructor
  · rw [hcalls]
    exact h.finite
  · rw [countP_snoc, countP_snoc, hcalls]
    omega

theorem begin_calls {call : Call} (h : begin s t k call = some s') :
    s'.worker = s.worker ∧ ∃ st, s'.calls = Function.update s.calls k st ∧ st.failing = 0 := by
  cases begin_cases h with
  | @unsubscribed a _ _ _ =>
      refine ⟨rfl, _, rfl, ?_⟩
      split <;> rfl
  | _ => exact ⟨rfl, _, rfl, rfl⟩

omit [DecidableEq Tid] [DecidableEq K] in
/-- A loop that goes on is at a failure before the section that counts it, and only there. -/
theorem advance_failing {d' : Delivery} {g g' : Globals K} {started : Option Nat}
    (h : d.advance g = some (g', d', started)) :
    d.failing = (decide (d.phase = .failed)).toNat + d'.failing := by
  cases advance_cases h with
  | starts hphase _ =>
      rw [Delivery.failing, hphase]
      rfl
  | counted hphase =>
      rw [Delivery.failing, hphase]
      rfl
  | finished hphase _ _ =>
      rw [Delivery.failing, hphase]
      rfl

theorem Bus.FailuresCounted.proceedCall (h : s.FailuresCounted p) (hstack : s.stack t = k :: rest)
    (hstep : proceedCall s t k = some s') : s'.FailuresCounted (p ++ [(s, .proceed t, s')]) := by
  have hd : s.deliveryOf t = (s.calls k).delivery := s.deliveryOf_call hstack
  have hquiet : ∀ st : CallState, (s.calls k).delivery = none → st.failing = 0 →
      s'.worker = s.worker → s'.calls = Function.update s.calls k st →
      s'.FailuresCounted (p ++ [(s, .proceed t, s')]) := by
    intro st hnone hst hworker hcalls
    have huncounted : Uncounted (s, .proceed t, s') := uncounted_of_none (hd.trans hnone)
    have hbefore : (s.calls k).failing = 0 := by
      rw [CallState.failing, hnone]
      rfl
    refine h.move hcalls ?_
    rw [huncounted.failure, hbefore, hst, hworker]
    rfl
  cases proceedCall_cases hstep with
  | @published d firstError hk hend =>
      have hloop : s.deliveryOf t = some d := by
        rw [hd, hk]
        rfl
      have hbefore : (s.calls k).failing = 0 := by
        rw [hk]
        exact d.failing_of_ne hend.ne_failed
      refine h.move rfl ?_
      rw [(uncounted_of_phase hloop hend.ne_failed).failure, hbefore]
      rfl
  | @publishing d firstError g d' started hk hadv =>
      have hloop : s.deliveryOf t = some d := by
        rw [hd, hk]
        rfl
      have hbefore : (s.calls k).failing = d.failing := by rw [hk]; rfl
      have hadvance := advance_failing hadv
      have hsum : 0 + s.worker.failing + d.failing =
          (decide (d.phase = .failed)).toNat + s.worker.failing + d'.failing := by omega
      refine h.move rfl ?_
      rw [hbefore, countsFailure_of_delivery hloop]
      exact hsum
  | unsubscribeWaits hk _ =>
      exact hquiet _ (by rw [hk]; rfl) (by rw [hk]; rfl) rfl (Function.update_eq_self ..).symm
  | unsubscribed hk _ => exact hquiet _ (by rw [hk]; rfl) rfl rfl rfl
  | freed hk => exact hquiet _ (by rw [hk]; rfl) rfl rfl rfl
  | stored hk => exact hquiet _ (by rw [hk]; rfl) rfl rfl rfl
  | stopWaits hk _ =>
      exact hquiet _ (by rw [hk]; rfl) (by rw [hk]; rfl) rfl (Function.update_eq_self ..).symm
  | stopped hk _ => exact hquiet _ (by rw [hk]; rfl) rfl rfl rfl

omit [DecidableEq K] in
theorem Bus.FailuresCounted.proceedWorker (h : s.FailuresCounted p)
    (hstack : s.stack .worker = []) (hstep : proceedWorker s = some s') :
    s'.FailuresCounted (p ++ [(s, .proceed .worker, s')]) := by
  have hd : s.deliveryOf .worker = s.worker.delivery := s.deliveryOf_worker hstack
  cases proceedWorker_cases hstep with
  | head hw =>
      have hnone : s.deliveryOf .worker = none := by
        rw [hd, hw]
        rfl
      have hafter : (eventWorker s.globals).2.failing = 0 := by
        obtain ⟨-, -, hready⟩ := eventWorker_stats s.globals
        cases hnext : (eventWorker s.globals).2 with
        | delivering k d =>
            have hne : d.phase ≠ .failed := by
              rw [hready k d hnext]
              decide
            exact d.failing_of_ne hne
        | _ => rfl
      refine h.moveWorker rfl ?_
      rw [(uncounted_of_none hnone).failure, hw]
      exact (congrArg (0 + ·) hafter).symm
  | @delivered k d hw hend =>
      have hloop : s.deliveryOf .worker = some d := by
        rw [hd, hw]
        rfl
      refine h.moveWorker rfl ?_
      rw [(uncounted_of_phase hloop hend.ne_failed).failure, hw]
      exact congrArg (0 + ·) (d.failing_of_ne hend.ne_failed)
  | @delivering k d g d' started hw hadv =>
      have hloop : s.deliveryOf .worker = some d := by
        rw [hd, hw]
        rfl
      refine h.moveWorker rfl ?_
      have hbefore : s.worker.failing = d.failing := by rw [hw]; rfl
      rw [hbefore, countsFailure_of_delivery hloop]
      exact (Nat.zero_add _).trans (advance_failing hadv)

omit [DecidableEq Tid] [DecidableEq K] in
theorem returned_failing (ret : SysErr) (hphase : d.phase = .running) :
    (decide (ret ≠ .ok)).toNat + d.failing = (d.returned ret).failing := by
  have hne : d.phase ≠ .failed := by
    rw [hphase]
    decide
  rw [d.failing_of_ne hne, Nat.add_zero]
  by_cases hret : ret = .ok
  · subst hret
    rfl
  · have hreturned : (d.returned ret).phase = .failed := if_pos hret
    rw [Delivery.failing_of_failed hreturned, decide_eq_true hret]
    rfl

theorem next_failures (h : s.FailuresCounted p) (hstart : Startable s.calls s.worker)
    (hstep : next s e = some s') : s'.FailuresCounted (p ++ [(s, e, s')]) := by
  cases e with
  | call t k call =>
      obtain ⟨⟨-, hk⟩, hbegin⟩ := Option.ite_none_right_eq_some.mp hstep
      obtain ⟨hworker, st, hcalls, hst⟩ := begin_calls hbegin
      refine h.move hcalls ?_
      rw [hworker, hst, hk]
      rfl
  | proceed t =>
      rcases proceed_cases hstep with ⟨k, rest, hstack, hcall⟩ | ⟨rfl, hstack, hworker⟩
      · exact h.proceedCall hstack hcall
      · exact h.proceedWorker hstack hworker
  | callbackReturn t ret =>
      cases callbackReturn_cases hstep with
      | @call _ k rest d firstError _ hstack hk hphase =>
          have hreturned := returned_failing ret hphase
          have hsum : (decide (ret ≠ .ok)).toNat + s.worker.failing + d.failing =
              0 + s.worker.failing + (d.returned ret).failing := by omega
          refine h.move rfl ?_
          rw [hk]
          exact hsum
      | @worker k d _ hstack hw hphase =>
          refine h.moveWorker rfl ?_
          rw [hw]
          exact (returned_failing ret hphase).trans (Nat.zero_add _).symm
  | threadCreate t ret =>
      cases threadCreate_cases hstep with
      | failed _ hk _ =>
          refine h.move rfl ?_
          rw [hk]
          rfl
      | created _ hk _ =>
          refine h.move rfl ?_
          rw [hk, (hstart _ hk).1]
          rfl
  | join t ret =>
      cases join_cases hstep with
      | noThread _ hk _ =>
          refine h.move rfl ?_
          rw [hk]
          rfl
      | itself _ hk _ _ =>
          refine h.move rfl ?_
          rw [hk]
          rfl
      | failed _ hk _ _ _ =>
          refine h.move rfl ?_
          rw [hk]
          rfl
      | joined _ hk _ _ _ hw =>
          refine h.move rfl ?_
          rw [hk, hw]
          rfl

theorem path_failures (h : (eventMachine Tid K).Path p s) :
    s.FailuresCounted p := by
  apply h.invariant (I := fun p s => s.FailuresCounted p)
  · intro s hs
    obtain rfl : s = Bus.zero Tid K := hs
    refine ⟨Set.finite_empty.subset fun k hk => hk rfl, ?_⟩
    have hzero : ∑ᶠ k, ((Bus.zero Tid K).calls k).failing = 0 :=
      finsum_eq_zero_of_forall_eq_zero fun k => rfl
    rw [hzero]
    rfl
  · intro p u e v hp hu hstep
    have hsound : u.Sound := sound_of_reachable hp.reachable
    exact next_failures hu hsound.shaped.startable hstep.1

/-- No failure of a callback is lost or counted twice, in whatever order the worker and the
    publishing calls run, and across stops and starts: the callbacks that have returned an error
    are the failures that were counted and those that their loop is about to count. -/
theorem failures_counted_once (h : (eventMachine Tid K).Path p s) :
    {k | (s.calls k).failing = 1}.Finite ∧ p.countP callbackFails =
      p.countP countsFailure + s.worker.failing + {k | (s.calls k).failing = 1}.ncard := by
  obtain ⟨hfinite, haccount⟩ := path_failures h
  have hle : ∀ k, (s.calls k).failing ≤ 1 := by
    intro k
    cases hd : (s.calls k).delivery with
    | none => simp [CallState.failing, hd]
    | some d =>
        have hfailing : (s.calls k).failing = d.failing := by
          rw [CallState.failing, hd]
          rfl
        exact hfailing ▸ d.failing_le
  obtain ⟨hsupport, hpos⟩ := Family.support_eq_one hle
  refine ⟨hsupport ▸ hfinite, ?_⟩
  rw [haccount, Family.finsum_eq_ncard hle, hpos]

/-- The callback has failed, and its loop has not counted it yet. -/
theorem failures_counted_once_failing :
    ∃ (p : List (Transition Unit (Fin 4))) (s : Bus Unit (Fin 4)), (s.calls 2).failing = 1 ∧
      p.countP callbackFails =
        p.countP countsFailure + s.worker.failing + {k | (s.calls k).failing = 1}.ncard := by
  have hexec : Machine.exec next (Bus.zero Unit (Fin 4)) (failingRun.take 7) = some _ := rfl
  obtain ⟨p, hpath, -⟩ := (failingRun_run hexec).exists_path rfl
  exact ⟨p, _, rfl, (failures_counted_once hpath).2⟩

end Failures

end Event
end AppCore
