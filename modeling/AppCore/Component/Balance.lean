/-
  AppCore.Component.Balance

  The callbacks of a whole cycle are balanced: what was initialized is
  deinitialized exactly once, what was started is stopped exactly once, in
  reverse order, on every exit path and whatever the callbacks return.
-/

import AppCore.Component.StartPass
import Mathlib.Data.List.Count

namespace AppCore
namespace Component

/-! ## Balanced call records -/

/-- The call is the init of this component. -/
def Call.isInit (id : UInt32) : Call → Bool
  | .init i _ => i = id
  | _ => false

/-- The call is the start of this component. -/
def Call.isStart (id : UInt32) : Call → Bool
  | .start i _ => i = id
  | _ => false

/-- The call is the stop of this component. -/
def Call.isStop (id : UInt32) : Call → Bool
  | .stop i _ => i = id
  | _ => false

/-- The components started successfully, in order. -/
def startedIds (calls : List Call) : List UInt32 :=
  calls.filterMap fun
    | .start i .ok => some i
    | _ => none

/-- The components stopped, in order. -/
def stoppedIds (calls : List Call) : List UInt32 :=
  calls.filterMap fun
    | .stop i _ => some i
    | _ => none

/-- Every acquisition is released exactly once, after it and in reverse order. -/
structure Balanced (calls : List Call) : Prop where
  init_once : ∀ id, calls.countP (Call.isInit id) ≤ 1
  start_once : ∀ id, calls.countP (Call.isStart id) ≤ 1
  start_after_init : ∀ pre id ret post, calls = pre ++ .start id ret :: post →
    .init id .ok ∈ pre
  stop_exact : ∀ id, calls.countP (Call.isStop id) = if .start id .ok ∈ calls then 1 else 0
  stop_after_start : ∀ pre id ret post, calls = pre ++ .stop id ret :: post →
    .start id .ok ∈ pre
  deinit_exact : ∀ id, calls.count (.deinit id) = if .init id .ok ∈ calls then 1 else 0
  deinit_after_init : ∀ pre id post, calls = pre ++ .deinit id :: post → .init id .ok ∈ pre
  deinit_after_stop : ∀ pre id post, calls = pre ++ .deinit id :: post →
    ∀ ret, .stop id ret ∉ post
  stops_reverse : stoppedIds calls = (startedIds calls).reverse

/-- An element that is not in the first part of a list lies after all of it. -/
theorem exists_append_of_not_mem {α : Type*} {a b pre post : List α} {x : α}
    (h : a ++ b = pre ++ x :: post) (hx : x ∉ a) :
    ∃ t, pre = a ++ t ∧ b = t ++ x :: post := by
  rcases List.append_eq_append_iff.mp h with ⟨t, rfl, rfl⟩ | ⟨t, rfl, ht⟩
  · exact ⟨t, rfl, rfl⟩
  · cases t with
    | nil => exact ⟨[], by simp, by simpa using ht.symm⟩
    | cons y t =>
        obtain ⟨rfl, -⟩ := List.cons.inj ht
        exact absurd (by simp) hx

/-- A first part of a list that contains an element contains all that lies before its
    first occurrence. -/
theorem mem_of_mem_before {α : Type*} {a b pre post : List α} {x y : α}
    (h : a ++ b = pre ++ x :: post) (hx : x ∈ a) (hpre : x ∉ pre) (hy : y ∈ pre) : y ∈ a := by
  rcases List.append_eq_append_iff.mp h with ⟨t, rfl, -⟩ | ⟨t, rfl, -⟩
  · exact absurd (List.mem_append_left _ hx) hpre
  · exact List.mem_append_left _ hy

/-! ## The parts of a cycle's record -/

namespace StartRecord

/-- The components whose start was called. -/
def attempted (done : StartRecord) : List ComponentDesc :=
  (done.filter fun x => x.2 ≠ .startSkipped).map (·.1)

/-- The components deinitialized by the start pass itself. -/
def released (done : StartRecord) : List ComponentDesc :=
  (done.filter fun x => x.2 ≠ .running ∧ x.1.policy ≠ policyRequired).map (·.1)

theorem mem_released {done : StartRecord} {c : ComponentDesc} :
    c ∈ done.released ↔ ∃ o, (c, o) ∈ done ∧ o ≠ .running ∧ c.policy ≠ policyRequired := by
  simp only [released, List.mem_map, List.mem_filter, decide_eq_true_eq]
  constructor
  · rintro ⟨⟨e, o⟩, ⟨hm, ho⟩, rfl⟩
    exact ⟨o, hm, ho⟩
  · rintro ⟨o, hm, ho⟩
    exact ⟨_, ⟨hm, ho⟩, rfl⟩

end StartRecord

section Parts

variable {cb : Callbacks} {done : StartRecord} {id : UInt32}

theorem countP_isStart_startCalls (done : StartRecord) (id : UInt32) :
    (done.flatMap (startCalls cb)).countP (Call.isStart id) =
      (ids done.attempted).count id := by
  induction done with
  | nil => rfl
  | cons x rest ih =>
      obtain ⟨c, o⟩ := x
      rw [List.flatMap_cons, List.countP_append, ih]
      cases o with
      | running =>
          simp [startCalls, Call.isStart, StartRecord.attempted, List.count_cons,
            Nat.add_comm, List.countP_cons]
      | startFailed =>
          by_cases hreq : c.policy = policyRequired <;>
            simp [startCalls, hreq, Call.isStart, StartRecord.attempted, List.count_cons,
              Nat.add_comm, List.countP_cons]
      | startSkipped =>
          by_cases hreq : c.policy = policyRequired <;>
            simp [startCalls, hreq, Call.isStart, StartRecord.attempted]

theorem count_deinit_startCalls (done : StartRecord) (id : UInt32) :
    (done.flatMap (startCalls cb)).count (.deinit id) = (ids done.released).count id := by
  induction done with
  | nil => rfl
  | cons x rest ih =>
      obtain ⟨c, o⟩ := x
      rw [List.flatMap_cons, List.count_append, ih]
      cases o with
      | running => simp [startCalls, StartRecord.released]
      | startFailed =>
          by_cases hreq : c.policy = policyRequired <;>
            simp [startCalls, hreq, StartRecord.released, List.count_cons, Nat.add_comm]
      | startSkipped =>
          by_cases hreq : c.policy = policyRequired <;>
            simp [startCalls, hreq, StartRecord.released, List.count_cons, Nat.add_comm]

theorem startedIds_startCalls (hout : OutcomesInOrder cb done) :
    startedIds (done.flatMap (startCalls cb)) = ids done.started := by
  induction done using List.reverseRecOn with
  | nil => rfl
  | append_singleton init x ih =>
      obtain ⟨c, o⟩ := x
      have ho : o = startOutcome cb init c := hout init c o [] rfl
      have hinit : OutcomesInOrder cb init := by
        intro pre e o' post heq
        exact hout pre e o' (post ++ [(c, o)]) (by rw [heq]; simp)
      have happ : ∀ a b, startedIds (a ++ b) = startedIds a ++ startedIds b :=
        fun a b => List.filterMap_append ..
      have hlast : startedIds (startCalls cb (c, o)) = ids (StartRecord.started [(c, o)]) := by
        cases startOutcome_cases ho with
        | running _ hstart => simp [startCalls, hstart, startedIds, StartRecord.started]
        | startFailed _ hfail =>
            have hstart : startedIds [.start c.id (cb.startResult c)] = [] := by
              cases hs : cb.startResult c <;> first | exact absurd hs hfail | rfl
            by_cases hreq : c.policy = policyRequired
            · simp only [startCalls, hreq, if_true, hstart]
              rfl
            · have := happ [.start c.id (cb.startResult c)] [.deinit c.id]
              simp only [startCalls, hreq, if_false]
              rw [show Call.start c.id (cb.startResult c) :: [Call.deinit c.id] =
                [.start c.id (cb.startResult c)] ++ [.deinit c.id] from rfl, this, hstart]
              rfl
        | startSkipped =>
            by_cases hreq : c.policy = policyRequired <;>
              simp [startCalls, hreq, startedIds, StartRecord.started]
      rw [List.flatMap_append, happ, ih hinit]
      simp only [StartRecord.started_append, List.map_append, List.flatMap_cons,
        List.flatMap_nil, List.append_nil, hlast]

end Parts

/-! ## The record of a cycle -/

section Cycle

variable {cb : Callbacks} {p : Progress} {done : StartRecord} {id : UInt32} {ret : SysErr}

theorem init_mem_cycleCalls :
    .init id ret ∈ cycleCalls cb p done ↔ id ∈ ids p.called ∧ cb.init id = ret := by
  simp only [cycleCalls, List.mem_append, List.mem_map, Call.init.injEq, reduceCtorEq,
    and_false, exists_false, or_false]
  constructor
  · rintro (⟨c, hc, rfl, rfl⟩ | h)
    · exact ⟨⟨c, hc, rfl⟩, rfl⟩
    · obtain ⟨c, o, -, ⟨hx, -⟩ | ⟨hx, -⟩⟩ := mem_startCalls h <;> cases hx
  · rintro ⟨⟨c, hc, rfl⟩, rfl⟩
    exact Or.inl ⟨c, hc, rfl, rfl⟩

theorem start_mem_cycleCalls (h : .start id ret ∈ cycleCalls cb p done) :
    ∃ c o, (c, o) ∈ done ∧ c.id = id ∧ cb.startResult c = ret ∧ o ≠ .startSkipped := by
  simp only [cycleCalls, List.mem_append, List.mem_map, reduceCtorEq, and_false, exists_false,
    or_false, false_or] at h
  obtain ⟨c, o, hm, ⟨hx, ho⟩ | ⟨hx, -⟩⟩ := mem_startCalls h
  · cases hx
    exact ⟨c, o, hm, rfl, rfl, ho⟩
  · cases hx

theorem stop_mem_cycleCalls (h : .stop id ret ∈ cycleCalls cb p done) :
    id ∈ ids done.started := by
  simp only [cycleCalls, List.mem_append, List.mem_map, reduceCtorEq, and_false, exists_false,
    or_false, false_or, Call.stop.injEq] at h
  rcases h with h | ⟨c, hc, rfl, -⟩
  · obtain ⟨c, o, -, ⟨hx, -⟩ | ⟨hx, -⟩⟩ := mem_startCalls h <;> cases hx
  · exact mem_ids_of_mem (List.mem_reverse.mp hc)

theorem OutcomesInOrder.startResult (h : OutcomesInOrder cb done) {c : ComponentDesc}
    (hc : (c, StartOutcome.running) ∈ done) : cb.startResult c = .ok := by
  obtain ⟨pre, post, heq⟩ := List.append_of_mem hc
  cases startOutcome_cases (h pre c .running post heq) with
  | running _ hstart => exact hstart

theorem OutcomesInOrder.running_of_startResult (h : OutcomesInOrder cb done)
    {c : ComponentDesc} {o : StartOutcome} (hc : (c, o) ∈ done) (hr : cb.startResult c = .ok)
    (ho : o ≠ .startSkipped) : o = .running := by
  obtain ⟨pre, post, heq⟩ := List.append_of_mem hc
  cases startOutcome_cases (h pre c o post heq) with
  | running => rfl
  | startFailed _ hstart => exact absurd hr hstart
  | startSkipped => exact absurd rfl ho

theorem start_ok_mem_startCalls (h : OutcomesInOrder cb done) (hid : id ∈ ids done.started) :
    .start id .ok ∈ done.flatMap (startCalls cb) := by
  obtain ⟨c, hc, rfl⟩ := List.mem_map.mp hid
  have hm := StartRecord.mem_started.mp hc
  refine List.mem_flatMap.mpr ⟨_, hm, ?_⟩
  simp [startCalls, h.startResult hm]

theorem start_ok_mem_cycleCalls (h : OutcomesInOrder cb done) :
    .start id .ok ∈ cycleCalls cb p done ↔ id ∈ ids done.started := by
  constructor
  · intro hm
    obtain ⟨c, o, hc, rfl, hr, ho⟩ := start_mem_cycleCalls hm
    have := h.running_of_startResult hc hr ho
    subst this
    exact mem_ids_of_mem (StartRecord.mem_started.mpr hc)
  · intro hid
    simp only [cycleCalls, List.mem_append]
    exact Or.inl (Or.inl (Or.inr (start_ok_mem_startCalls h hid)))

/-- What is still to be deinitialized after the start pass. -/
theorem startRuntime_initialized_iff (h : PassFacts cb p done) {c : ComponentDesc}
    (hc : c ∈ initialized cb p.called) :
    (startRuntime cb p done c.id).initialized = true ↔ c.id ∉ ids done.released := by
  by_cases hm : c.id ∈ done.ids
  · obtain ⟨⟨e, o⟩, he, hid⟩ := List.mem_map.mp hm
    simp only at hid
    rw [← hid, startRuntime_of_mem h.done_nodup he]
    have hrel : e.id ∈ ids done.released ↔ o ≠ .running ∧ e.policy ≠ policyRequired := by
      constructor
      · intro hr
        obtain ⟨f, hf, hfe⟩ := List.mem_map.mp hr
        obtain ⟨o', hf', ho'⟩ := StartRecord.mem_released.mp hf
        obtain ⟨rfl, rfl⟩ := h.eq_of_mem hf' he hfe
        exact ho'
      · intro ho
        exact mem_ids_of_mem (StartRecord.mem_released.mpr ⟨o, he, ho⟩)
    rw [hrel]
    cases o <;> simp [startSlot]
  · have hrel : c.id ∉ ids done.released := by
      intro hr
      obtain ⟨f, hf, hfe⟩ := List.mem_map.mp hr
      obtain ⟨o, hfo, -⟩ := StartRecord.mem_released.mp hf
      exact hm (List.mem_map.mpr ⟨_, hfo, hfe⟩)
    obtain ⟨hcalled, hok⟩ := mem_initialized.mp hc
    rw [startRuntime_of_not_mem hm,
      Progress.runtime_of_initDone ⟨mem_ids_of_mem hcalled, hok⟩ (h.not_skipped c hc)]
    simp [hrel]

theorem released_initialized (h : PassFacts cb p done) (hid : id ∈ ids done.released) :
    id ∈ ids (initialized cb p.called) := by
  obtain ⟨c, hc, rfl⟩ := List.mem_map.mp hid
  obtain ⟨o, hco, -⟩ := StartRecord.mem_released.mp hc
  exact mem_ids_of_mem (h.done_initialized hco)

theorem not_released_of_started (h : PassFacts cb p done) (hid : id ∈ ids done.started) :
    id ∉ ids done.released := by
  intro hr
  obtain ⟨c, hc, rfl⟩ := List.mem_map.mp hid
  obtain ⟨e, he, hec⟩ := List.mem_map.mp hr
  obtain ⟨o, heo, ho, -⟩ := StartRecord.mem_released.mp he
  have : (e, o) = (c, StartOutcome.running) :=
    List.inj_on_of_nodup_map h.done_nodup heo (StartRecord.mem_started.mp hc) hec
  cases this
  exact ho rfl

theorem deinit_mem_startCalls (h : .deinit id ∈ done.flatMap (startCalls cb)) :
    id ∈ ids done.released := by
  obtain ⟨c, o, hc, ⟨hx, -⟩ | ⟨hx, ho⟩⟩ := mem_startCalls h
  · cases hx
  · cases hx
    exact mem_ids_of_mem (StartRecord.mem_released.mpr ⟨o, hc, ho⟩)

theorem deinit_mem_cycleCalls (h : PassFacts cb p done)
    (hm : .deinit id ∈ cycleCalls cb p done) : id ∈ ids (initialized cb p.called) := by
  simp only [cycleCalls, List.mem_append, List.mem_map, reduceCtorEq, and_false, exists_false,
    or_false, false_or, Call.deinit.injEq] at hm
  rcases hm with hm | ⟨c, hc, rfl⟩
  · exact released_initialized h (deinit_mem_startCalls hm)
  · exact mem_ids_of_mem (List.mem_reverse.mp (List.mem_filter.mp hc).1)

/-! ### Counting -/

theorem countP_isInit_cycleCalls :
    (cycleCalls cb p done).countP (Call.isInit id) = (ids p.called).count id := by
  have hstart : (done.flatMap (startCalls cb)).countP (Call.isInit id) = 0 := by
    rw [List.countP_eq_zero]
    intro x hx
    obtain ⟨c, o, -, ⟨rfl, -⟩ | ⟨rfl, -⟩⟩ := mem_startCalls hx <;> simp [Call.isInit]
  have hstop : ∀ l : List ComponentDesc,
      (l.map fun c => Call.stop c.id (cb.stopResult c)).countP (Call.isInit id) = 0 := by
    intro l
    simp [List.countP_eq_zero, Call.isInit]
  have hdeinit : ∀ l : List ComponentDesc,
      (l.map fun c => Call.deinit c.id).countP (Call.isInit id) = 0 := by
    intro l
    simp [List.countP_eq_zero, Call.isInit]
  simp only [cycleCalls, List.countP_append, hstart, hstop, hdeinit, Nat.add_zero]
  simp only [List.countP_map, List.count, ids]
  exact List.countP_congr fun c _ => by simp [Call.isInit]

theorem countP_isStart_cycleCalls :
    (cycleCalls cb p done).countP (Call.isStart id) = (ids done.attempted).count id := by
  have hinit : (p.called.map fun c => Call.init c.id (cb.init c.id)).countP
      (Call.isStart id) = 0 := by
    simp [List.countP_eq_zero, Call.isStart]
  have hstop : ∀ l : List ComponentDesc,
      (l.map fun c => Call.stop c.id (cb.stopResult c)).countP (Call.isStart id) = 0 := by
    intro l
    simp [List.countP_eq_zero, Call.isStart]
  have hdeinit : ∀ l : List ComponentDesc,
      (l.map fun c => Call.deinit c.id).countP (Call.isStart id) = 0 := by
    intro l
    simp [List.countP_eq_zero, Call.isStart]
  simp only [cycleCalls, List.countP_append, hinit, countP_isStart_startCalls, hstop, hdeinit,
    Nat.add_zero, Nat.zero_add]

theorem countP_isStop_cycleCalls :
    (cycleCalls cb p done).countP (Call.isStop id) = (ids done.started).count id := by
  have hinit : (p.called.map fun c => Call.init c.id (cb.init c.id)).countP
      (Call.isStop id) = 0 := by
    simp [List.countP_eq_zero, Call.isStop]
  have hstart : (done.flatMap (startCalls cb)).countP (Call.isStop id) = 0 := by
    rw [List.countP_eq_zero]
    intro x hx
    obtain ⟨c, o, -, ⟨rfl, -⟩ | ⟨rfl, -⟩⟩ := mem_startCalls hx <;> simp [Call.isStop]
  have hdeinit : ∀ l : List ComponentDesc,
      (l.map fun c => Call.deinit c.id).countP (Call.isStop id) = 0 := by
    intro l
    simp [List.countP_eq_zero, Call.isStop]
  simp only [cycleCalls, List.countP_append, hinit, hstart, hdeinit, Nat.add_zero,
    Nat.zero_add, List.map_reverse, List.countP_reverse]
  simp only [List.countP_map, List.count, ids]
  exact List.countP_congr fun c _ => by simp [Call.isStop]

theorem count_deinit_cycleCalls (h : PassFacts cb p done) :
    (cycleCalls cb p done).count (.deinit id) = (ids (initialized cb p.called)).count id := by
  have hinit : (p.called.map fun c => Call.init c.id (cb.init c.id)).count (.deinit id) = 0 := by
    simp [List.count_eq_zero]
  have hstop : (done.started.reverse.map fun c => Call.stop c.id (cb.stopResult c)).count
      (.deinit id) = 0 := by
    simp [List.count_eq_zero]
  have hfilter : (initialized cb p.called).reverse.filter
      (fun c => (startRuntime cb p done c.id).initialized) =
      (initialized cb p.called).reverse.filter fun c => decide (c.id ∉ ids done.released) := by
    apply List.filter_congr
    intro c hc
    rw [Bool.eq_iff_iff, startRuntime_initialized_iff h (List.mem_reverse.mp hc)]
    simp
  have hrest : (((initialized cb p.called).reverse.filter fun c =>
        decide (c.id ∉ ids done.released)).map fun c => Call.deinit c.id).count (.deinit id) =
      if id ∈ ids done.released then 0 else (ids (initialized cb p.called)).count id := by
    simp only [List.count, List.countP_map, List.countP_filter, List.countP_reverse]
    split
    · rename_i hid
      rw [List.countP_eq_zero]
      intro c _ hc
      simp only [Function.comp_apply, Bool.and_eq_true, beq_iff_eq, Call.deinit.injEq,
        decide_eq_true_eq] at hc
      exact hc.2 (hc.1 ▸ hid)
    · rename_i hid
      refine List.countP_congr fun c _ => ?_
      simp only [Function.comp_apply, Bool.and_eq_true, beq_iff_eq, Call.deinit.injEq,
        decide_eq_true_eq, and_iff_left_iff_imp]
      rintro rfl
      exact hid
  have hnd : (ids (initialized cb p.called)).Nodup :=
    h.called_nodup.sublist ((initialized_sublist p.called).map _)
  have hrelnd : (ids done.released).Nodup := by
    have : (ids done.released).Sublist done.ids := by
      simp only [ids, StartRecord.released, List.map_map]
      exact (List.filter_sublist).map _
    exact h.done_nodup.sublist this
  simp only [cycleCalls, List.count_append, hinit, hstop, count_deinit_startCalls, hfilter,
    hrest, Nat.zero_add, Nat.add_zero]
  by_cases hid : id ∈ ids done.released
  · rw [if_pos hid, List.count_eq_one_of_mem hrelnd hid,
      List.count_eq_one_of_mem hnd (released_initialized h hid)]
  · rw [if_neg hid, List.count_eq_zero.mpr hid, Nat.zero_add]

/-! ### Order -/

theorem startedIds_cycleCalls (h : OutcomesInOrder cb done) :
    startedIds (cycleCalls cb p done) = ids done.started := by
  have hA : startedIds (p.called.map fun c => Call.init c.id (cb.init c.id)) = [] := by
    simp [startedIds]
  have hC : startedIds (done.started.reverse.map fun c => Call.stop c.id (cb.stopResult c)) =
      [] := by
    simp [startedIds]
  have hD : ∀ l : List ComponentDesc, startedIds (l.map fun c => Call.deinit c.id) = [] := by
    intro l
    simp [startedIds]
  have happ : ∀ a b, startedIds (a ++ b) = startedIds a ++ startedIds b :=
    fun a b => List.filterMap_append ..
  rw [cycleCalls, happ, happ, happ, hA, hC, hD, startedIds_startCalls h]
  simp

theorem stoppedIds_cycleCalls :
    stoppedIds (cycleCalls cb p done) = (ids done.started).reverse := by
  have hA : stoppedIds (p.called.map fun c => Call.init c.id (cb.init c.id)) = [] := by
    simp [stoppedIds]
  have hB : stoppedIds (done.flatMap (startCalls cb)) = [] := by
    rw [stoppedIds, List.filterMap_eq_nil_iff]
    intro x hx
    obtain ⟨c, o, -, ⟨rfl, -⟩ | ⟨rfl, -⟩⟩ := mem_startCalls hx <;> rfl
  have hC : stoppedIds (done.started.reverse.map fun c => Call.stop c.id (cb.stopResult c)) =
      (ids done.started).reverse := by
    rw [stoppedIds, List.filterMap_map, ids, ← List.map_reverse, ← List.filterMap_eq_map]
    rfl
  have hD : ∀ l : List ComponentDesc, stoppedIds (l.map fun c => Call.deinit c.id) = [] := by
    intro l
    simp [stoppedIds]
  have happ : ∀ a b, stoppedIds (a ++ b) = stoppedIds a ++ stoppedIds b :=
    fun a b => List.filterMap_append ..
  rw [cycleCalls, happ, happ, happ, hA, hB, hC, hD]
  simp

/-- The record of every cycle is balanced. -/
theorem balanced_cycleCalls (h : PassFacts cb p done) : Balanced (cycleCalls cb p done) where
  init_once id := by
    rw [countP_isInit_cycleCalls]
    exact List.nodup_iff_count_le_one.mp h.called_nodup id
  start_once id := by
    rw [countP_isStart_cycleCalls]
    have : (ids done.attempted).Sublist done.ids := by
      simp only [ids, StartRecord.attempted, List.map_map]
      exact (List.filter_sublist).map _
    exact List.nodup_iff_count_le_one.mp (h.done_nodup.sublist this) id
  start_after_init pre id ret post heq := by
    have hmem : .start id ret ∈ cycleCalls cb p done := by rw [heq]; simp
    obtain ⟨c, o, hc, rfl, -, -⟩ := start_mem_cycleCalls hmem
    obtain ⟨hcalled, hok⟩ := mem_initialized.mp (h.done_initialized hc)
    simp only [cycleCalls, List.append_assoc] at heq
    obtain ⟨t, rfl, -⟩ := exists_append_of_not_mem heq (by simp)
    refine List.mem_append_left _ (List.mem_map.mpr ⟨c, hcalled, ?_⟩)
    simp only at hok
    rw [hok]
  stop_exact id := by
    rw [countP_isStop_cycleCalls]
    have hnd : (ids done.started).Nodup := by
      have : (ids done.started).Sublist done.ids := by
        simp only [ids, StartRecord.started, List.map_map]
        exact (List.filter_sublist).map _
      exact h.done_nodup.sublist this
    by_cases hid : id ∈ ids done.started
    · rw [if_pos ((start_ok_mem_cycleCalls h.outcomes).mpr hid),
        List.count_eq_one_of_mem hnd hid]
    · rw [if_neg (fun hm => hid ((start_ok_mem_cycleCalls h.outcomes).mp hm)),
        List.count_eq_zero.mpr hid]
  stop_after_start pre id ret post heq := by
    have hmem : .stop id ret ∈ cycleCalls cb p done := by rw [heq]; simp
    have hid := stop_mem_cycleCalls hmem
    rw [cycleCalls, List.append_assoc] at heq
    obtain ⟨t, rfl, -⟩ := exists_append_of_not_mem heq (by
      intro hm
      rcases List.mem_append.mp hm with hm | hm
      · simp at hm
      · obtain ⟨c, o, -, ⟨hx, -⟩ | ⟨hx, -⟩⟩ := mem_startCalls hm <;> cases hx)
    exact List.mem_append_left _
      (List.mem_append_right _ (start_ok_mem_startCalls h.outcomes hid))
  deinit_exact id := by
    rw [count_deinit_cycleCalls h]
    have hnd : (ids (initialized cb p.called)).Nodup :=
      h.called_nodup.sublist ((initialized_sublist p.called).map _)
    by_cases hid : id ∈ ids (initialized cb p.called)
    · rw [if_pos (init_mem_cycleCalls.mpr (mem_ids_initialized.mp hid)),
        List.count_eq_one_of_mem hnd hid]
    · rw [if_neg (fun hm => hid (mem_ids_initialized.mpr (init_mem_cycleCalls.mp hm))),
        List.count_eq_zero.mpr hid]
  deinit_after_init pre id post heq := by
    have hmem : .deinit id ∈ cycleCalls cb p done := by rw [heq]; simp
    have hid := deinit_mem_cycleCalls h hmem
    obtain ⟨hcalled, hok⟩ := mem_ids_initialized.mp hid
    obtain ⟨c, hc, rfl⟩ := List.mem_map.mp hcalled
    simp only [cycleCalls, List.append_assoc] at heq
    obtain ⟨t, rfl, -⟩ := exists_append_of_not_mem heq (by simp)
    exact List.mem_append_left _ (List.mem_map.mpr ⟨c, hc, by rw [hok]⟩)
  deinit_after_stop pre id post heq ret hmem := by
    have hstop : .stop id ret ∈ cycleCalls cb p done := by rw [heq]; simp [hmem]
    have hid := stop_mem_cycleCalls hstop
    -- a started component is deinitialized by the last loop, after all the stops
    obtain ⟨t, rfl, ht⟩ := exists_append_of_not_mem heq (by
      intro hm
      rcases List.mem_append.mp hm with hm | hm
      · rcases List.mem_append.mp hm with hm | hm
        · simp at hm
        · exact not_released_of_started h hid (deinit_mem_startCalls hm)
      · simp at hm)
    have : .stop id ret ∈ t ++ .deinit id :: post := by simp [hmem]
    rw [← ht] at this
    simp at this
  stops_reverse := by
    rw [stoppedIds_cycleCalls, startedIds_cycleCalls h.outcomes]

end Cycle

/-- The record of a cycle that returns. -/
theorem balanced_of_lifecycleRun {cb : Callbacks} {sec : LinkSection} {g g₁ g₂ : Lifecycle}
    {r : SysErr} (h : (collectComponents sec g).1 = .ok)
    (hcycle : lifecycleRun cb sec g = some (r, g₁, g₂)) : Balanced g₂.calls := by
  obtain ⟨r', p, done, g₁', g₂', hrun, hp, heq, hcalls⟩ := lifecycleRun_spec cb h
  have hsame : (r, g₁, g₂) = (r', g₁', g₂') := Option.some.inj (hcycle.symm.trans heq)
  obtain ⟨-, -, rfl⟩ : r = r' ∧ g₁ = g₁' ∧ g₂ = g₂' := by simpa using hsame
  rw [hcalls]
  exact balanced_cycleCalls (hrun.facts hp)

/-- For every accepted section and all callback results a cycle returns and its
    record is balanced. -/
theorem lifecycleRun_balanced (cb : Callbacks) (sec : LinkSection) (g : Lifecycle)
    (h : (collectComponents sec g).1 = .ok) :
    ∃ r g₁ g₂, lifecycleRun cb sec g = some (r, g₁, g₂) ∧ Balanced g₂.calls := by
  obtain ⟨r, p, done, g₁, g₂, -, -, heq, -⟩ := lifecycleRun_spec cb h
  exact ⟨r, g₁, g₂, heq, balanced_of_lifecycleRun h heq⟩

/-- A required component whose dependency fails to start. -/
theorem lifecycleRun_balanced_rollback :
    ∃ r g₁ g₂, lifecycleRun (Callbacks.failing [] [1])
        (.ofList [.core 2 policyRequired [1], .core 1 policyOptional []]) .zero =
      some (r, g₁, g₂) ∧ Balanced g₂.calls :=
  lifecycleRun_balanced _ _ _ (by decide)

end Component
end AppCore
