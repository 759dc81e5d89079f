/-
  AppCore.Event.References

  The in-flight counts are the references of the queue, of the worker and of the calls,
  and every subscription has one owner.  Each effect of a step keeps this.
-/

import AppCore.Event.Steps

namespace AppCore
namespace Event

variable {Tid K : Type*} {s s' : Bus Tid K} {k : K} {a : Nat}

/-! ## Objects and their outlines -/

theorem isSome_outline (heap : Heap) (a : Nat) : (heap.outline a).isSome = (heap a).isSome := by
  rw [Heap.outline, Option.isSome_map]

/-- Objects with one outline are active together. -/
theorem active_of_outline {heap heap' : Heap} (h : heap'.outline a = heap.outline a)
    (hactive : ∀ sub, heap a = some sub → sub.active = true) :
    ∀ sub, heap' a = some sub → sub.active = true := by
  intro sub' hsub'
  rw [Heap.outline, Heap.outline, hsub', Option.map_some] at h
  cases hsub : heap a with
  | none =>
      rw [hsub] at h
      cases h
  | some sub =>
      rw [hsub, Option.map_some, Option.some.injEq, Prod.mk.injEq] at h
      rw [h.2]
      exact hactive sub hsub

/-- No object has the next number. -/
theorem Bus.Shaped.next_none (h : s.Shaped) : s.globals.heap s.globals.nextId = none := by
  cases hnext : s.globals.heap s.globals.nextId with
  | none => rfl
  | some sub =>
      have hlt := h.fresh s.globals.nextId (by rw [hnext]; rfl)
      exact absurd hlt (lt_irrefl _)

/-- A subscription that a call has detached is not in the table. -/
theorem Bus.Owned.not_mem_of_detached (h : s.Owned) (ha : a ∈ (s.calls k).detached) :
    a ∉ s.globals.subscribers := by
  have hown := h.owner a
  have hle := single_le_finsum k (h.finite a) fun _ => Nat.zero_le _
  have hpos : 0 < (s.calls k).detached.count a := List.count_pos_iff.mpr ha
  have hobj := objects_le_one s.globals.heap a
  intro hmem
  have hmem : 0 < s.globals.subscribers.count a := List.count_pos_iff.mpr hmem
  omega

theorem Bus.Owned.isSome_of_detached (h : s.Owned) (ha : a ∈ (s.calls k).detached) :
    (s.globals.heap a).isSome := by
  have hown := h.owner a
  have hle := single_le_finsum k (h.finite a) fun _ => Nat.zero_le _
  have hpos : 0 < (s.calls k).detached.count a := List.count_pos_iff.mpr ha
  apply isSome_of_objects
  omega

/-- Retaining the subscriptions of the table does not retain one that was taken out. -/
theorem Retained.inFlight_zero {g : Globals K} {heap : Heap} {eventId : UInt32}
    (h : Retained g.heap heap (g.matching eventId)) (ha : a ∉ g.subscribers)
    (hzero : g.heap.inFlight a = 0) : heap.inFlight a = 0 := by
  have hnot : a ∉ g.matching eventId := fun hmem => ha (List.mem_of_mem_filter hmem)
  rw [h.inFlight, hzero, List.count_eq_zero_of_not_mem hnot]

theorem Finished.inFlight_zero {heap heap' : Heap} {b : Nat} (h : Finished heap heap' b)
    (hzero : heap.inFlight a = 0) : heap'.inFlight a = 0 := by
  have hdec := h.inFlight a
  omega

/-- Objects with one outline exist together. -/
theorem objects_of_outline {heap heap' : Heap} (h : heap'.outline a = heap.outline a) :
    heap'.objects a = heap.objects a := by
  rw [Heap.outline, Heap.outline] at h
  cases hsub : heap a with
  | none =>
      rw [hsub, Option.map_none, Option.map_eq_none_iff] at h
      rw [objects_of_none h, objects_of_none hsub]
  | some sub =>
      rw [hsub, Option.map_some, Option.map_eq_some_iff] at h
      obtain ⟨sub', hsub', -⟩ := h
      rw [objects_of_some hsub', objects_of_some hsub]

/-! ## The shape -/

/-- A step that keeps every outline keeps the shape of the heap. -/
theorem Bus.Shaped.of_outline (h : s.Shaped)
    (hout : ∀ a, s'.globals.heap.outline a = s.globals.heap.outline a)
    (hnext : s'.globals.nextId = s.globals.nextId)
    (hsubs : s'.globals.subscribers = s.globals.subscribers) (hqueue : s'.globals.QueueOk)
    (hflag : Flagged s'.globals s'.worker) (hstart : Startable s'.calls s'.worker)
    (hnodup : ∀ w ∈ s'.globals.queued, w.subscribers.Nodup) : s'.Shaped := by
  refine ⟨hqueue, hflag, hstart, fun a ha => ?_, fun a ha => ?_, hnodup⟩
  · rw [hnext]
    apply h.fresh
    rwa [← isSome_outline, ← hout, isSome_outline]
  · rw [hsubs] at ha
    exact active_of_outline (hout a) (h.active a ha)

/-- While the worker exists, no start is in progress. -/
theorem Bus.Shaped.startable_of_worker (h : s.Shaped) (hw : s.worker ≠ .absent)
    (w : WorkerLoop K) : Startable s.calls w :=
  fun k hk => absurd (h.startable k hk).1 hw

variable [DecidableEq K]

/-- A call moves while the heap and the table change and the rest of the globals stays. -/
theorem Bus.Shaped.of_table (h : s.Shaped) {st : CallState} (hst : st.Inner) {heap : Heap}
    {nextId : Nat} {subscribers : List Nat} {stack : Thread Tid → List K}
    (hfresh : ∀ b, (heap b).isSome → b < nextId)
    (hactive : ∀ b ∈ subscribers, ∀ sub, heap b = some sub → sub.active = true) :
    Bus.Shaped ⟨{ s.globals with heap := heap, nextId := nextId, subscribers := subscribers },
      s.worker, Function.update s.calls k st, stack, s.locals, s.syncLog, s.asyncLog⟩ :=
  ⟨⟨h.queueOk.head_lt, h.queueOk.count_le, h.queueOk.holds⟩,
    ⟨h.flagged.accepting, h.flagged.exited⟩,
    startable_update h.startable (CallState.Inner.ne_starting hst), hfresh, hactive, h.nodup⟩

theorem Effect.shaped (h : Effect s s') (hs : s.Sound) : s'.Shaped := by
  have hsh := hs.shaped
  have hq := hsh.queueOk
  cases h with
  | moved hsame hflag hstart =>
      refine hsh.of_outline (fun a => ?_) hsame.nextId hsame.subscribers hsame.queueOk hflag hstart
        ?_
      · exact congrArg (Heap.outline · a) hsame.heap
      · rw [hsame.queued]
        exact hsh.nodup
  | workerMoved hsame hflag hstart =>
      refine hsh.of_outline (fun a => ?_) hsame.nextId hsame.subscribers hsame.queueOk hflag hstart
        ?_
      · exact congrArg (Heap.outline · a) hsame.heap
      · rw [hsame.queued]
        exact hsh.nodup
  | workerStarted hw =>
      exact hsh.of_outline (fun a => rfl) rfl rfl hq
        (Flagged.delivering hsh.flagged.accepting)
        (hsh.startable_of_worker (by simp [hw]) _) hsh.nodup
  | subscribed hk hrep hasync hzero hactive =>
      -- the new object has the next number and is active
      refine hsh.of_table (by trivial) (fun a ha => ?_) fun a ha sub hsub => ?_
      · by_cases hne : a = s.globals.nextId
        · exact hne ▸ Nat.lt_succ_self _
        · rw [Function.update_of_ne hne] at ha
          exact Nat.lt_succ_of_lt (hsh.fresh a ha)
      · by_cases hne : a = s.globals.nextId
        · subst hne
          rw [Function.update_self] at hsub
          obtain rfl := Option.some.inj hsub
          exact hactive
        · rw [Function.update_of_ne hne] at hsub
          rcases List.mem_append.mp ha with ha | ha
          · exact hsh.active a ha sub hsub
          · exact absurd (List.mem_singleton.mp ha) hne
  | @detached k st a stack hk hmem hst =>
      have hinner : st.Inner := by
        rcases hst with rfl | ⟨rfl, -⟩
        · trivial
        · trivial
      refine hsh.of_table hinner (fun b hb => ?_) fun b hb sub hsub => ?_
      · by_cases hne : b = a
        · exact hne ▸ hsh.fresh a (hs.owned.isSome_of_mem hmem)
        · rw [Heap.deactivate, Function.update_of_ne hne] at hb
          exact hsh.fresh b hb
      · -- the inactive object has left the table
        obtain ⟨hne, hb⟩ := (List.Nodup.mem_erase_iff hs.owned.table_nodup).mp hb
        rw [Heap.deactivate, Function.update_of_ne hne] at hsub
        exact hsh.active b hb sub hsub
  | @published k g stack event hk habi hret htab hqueue hqueued =>
      refine hsh.of_outline hret.outline htab.nextId htab.subscribers hqueue ⟨fun hacc => ?_,
        fun hw => ?_⟩ (startable_update hsh.startable (CallState.Inner.ne_starting trivial)) ?_
      · show g.running = true
        rw [htab.running]
        exact hsh.flagged.accepting (htab.accepting.symm.trans hacc)
      · show g.running = false ∧ g.queued = []
        rw [htab.running, hqueued]
        exact hsh.flagged.exited hw
      · rw [hqueued]
        exact hsh.nodup
  | @accepted k call g event works hk hrep hasync hret htab hacc hqueue hqueued hsubs hstarts
      hnodup =>
      refine hsh.of_outline hret.outline htab.nextId htab.subscribers hqueue ⟨fun hacc => ?_,
        fun hw => ?_⟩ (startable_update hsh.startable (CallState.Inner.ne_starting trivial)) ?_
      · show g.running = true
        rw [htab.running]
        exact hsh.flagged.accepting (htab.accepting.symm.trans hacc)
      · -- a worker that has left its loop has seen the bus closed
        have hrun := hsh.flagged.accepting hacc
        rw [(hsh.flagged.exited hw).1] at hrun
        cases hrun
      · rw [hqueued]
        intro w hw
        exact (List.mem_append.mp hw).elim (hsh.nodup w) (hnodup w)
  | @taken w rest g hw hqueued hheap htab hqueue hrest =>
      refine hsh.of_outline (fun a => congrArg (Heap.outline · a) hheap) htab.nextId
        htab.subscribers hqueue (Flagged.delivering fun hacc => ?_)
        (hsh.startable_of_worker (by simp [hw]) _) ?_
      · show g.running = true
        rw [htab.running]
        exact hsh.flagged.accepting (htab.accepting.symm.trans hacc)
      · rw [hrest]
        intro w hw
        apply hsh.nodup
        rw [hqueued]
        exact List.mem_cons_of_mem _ hw
  | callFinished hk hphase hpending hfin =>
      exact hsh.of_outline hfin.outline rfl rfl ⟨hq.head_lt, hq.count_le, hq.holds⟩
        ⟨hsh.flagged.accepting, hsh.flagged.exited⟩
        (startable_update hsh.startable (CallState.Inner.ne_starting trivial)) hsh.nodup
  | workerFinished hw hphase hpending hfin =>
      exact hsh.of_outline hfin.outline rfl rfl ⟨hq.head_lt, hq.count_le, hq.holds⟩
        (Flagged.delivering hsh.flagged.accepting)
        (hsh.startable_of_worker (by simp [hw]) _) hsh.nodup
  | @freed k a stack hk =>
      refine hsh.of_table (by trivial) (fun b hb => ?_) fun b hb sub hsub => ?_
      · by_cases hne : b = a
        · subst hne
          rw [Function.update_self] at hb
          cases hb
        · rw [Function.update_of_ne hne] at hb
          exact hsh.fresh b hb
      · by_cases hne : b = a
        · subst hne
          rw [Function.update_self] at hsub
          cases hsub
        · rw [Function.update_of_ne hne] at hsub
          exact hsh.active b hb sub hsub
  | stopped hk hzero =>
      refine hsh.of_table (by trivial) (fun b hb => ?_) fun b hb => absurd hb List.not_mem_nil
      split at hb
      · cases hb
      · exact hsh.fresh b hb

/-! ## The counts -/

/-- The references of the calls after one of them has moved. -/
theorem Bus.Counted.calls_update (h : s.Counted) (k : K) (st : CallState) (a : Nat) :
    (∑ᶠ k', (Function.update s.calls k st k').refs.count a) + (s.calls k).refs.count a =
      (∑ᶠ k', (s.calls k').refs.count a) + st.refs.count a :=
  Family.finsum_update_add (f := fun _ (st : CallState) => st.refs.count a) (h.finite a) k st

theorem Bus.Counted.finite_update (h : s.Counted) (k : K) (st : CallState) (a : Nat) :
    (Function.support fun k' => (Function.update s.calls k st k').refs.count a).Finite :=
  Family.support_update_finite (f := fun _ (st : CallState) => st.refs.count a) (h.finite a) k st

theorem Bus.Counted.calls_start (h : s.Counted) (hk : s.calls k = .notStarted) (st : CallState)
    (a : Nat) : (∑ᶠ k', (Function.update s.calls k st k').refs.count a) =
      (∑ᶠ k', (s.calls k').refs.count a) + st.refs.count a := by
  have hsum := h.calls_update k st a
  rw [hk] at hsum
  exact hsum

/-- A call that moves without a reference does not change the sum. -/
theorem Bus.Counted.calls_same (h : s.Counted) {st : CallState} (hrefs : st.refs = (s.calls k).refs)
    (a : Nat) : (∑ᶠ k', (Function.update s.calls k st k').refs.count a) =
      ∑ᶠ k', (s.calls k').refs.count a := by
  have hsum := h.calls_update k st a
  rw [hrefs] at hsum
  omega

theorem Effect.counted (h : Effect s s') (hs : s.Sound) : s'.Counted := by
  have hc := hs.counted
  cases h with
  | moved hsame hflag hstart hworker htoStart hrefs =>
      refine ⟨hc.finite_update _ _, fun a => ?_⟩
      dsimp only
      rw [hc.calls_same hrefs, hsame.heap, hsame.queued, hworker]
      exact hc.inFlight a
  | workerMoved hsame hflag hstart hworker =>
      refine ⟨hc.finite, fun a => ?_⟩
      dsimp only
      rw [hsame.heap, hsame.queued, hworker]
      exact hc.inFlight a
  | workerStarted hw hphase hpending =>
      refine ⟨hc.finite, fun a => ?_⟩
      have hold := hc.inFlight a
      rw [hw] at hold
      exact hold
  | @subscribed k call sub out hk hrep hasync hzero hactive =>
      refine ⟨hc.finite_update _ _, fun a => ?_⟩
      dsimp only
      rw [hc.calls_same (by rw [hk]; rfl)]
      refine Eq.trans ?_ (hc.inFlight a)
      -- no reference can be to a number that was not given out yet
      by_cases hne : a = s.globals.nextId
      · subst hne
        rw [inFlight_of_some (Function.update_self ..), hzero,
          inFlight_of_none hs.shaped.next_none]
      · exact inFlight_congr (Function.update_of_ne hne ..)
  | @detached k st a stack hk hmem hst =>
      have hrefs : st.refs = (s.calls k).refs := by
        rcases hst with rfl | ⟨rfl, -⟩
        · rw [hk]
          rfl
        · rw [hk]
          rfl
      refine ⟨hc.finite_update _ _, fun b => ?_⟩
      dsimp only
      rw [hc.calls_same hrefs, inFlight_deactivate]
      exact hc.inFlight b
  | @published k g stack event hk habi hret htab hqueue hqueued =>
      -- the references taken for the matching subscriptions are the call's
      refine ⟨hc.finite_update _ _, fun a => ?_⟩
      have hold := hc.inFlight a
      dsimp only
      rw [hc.calls_start hk, hret.inFlight, hqueued, hold]
      exact Nat.add_assoc _ _ _
  | @accepted k call g event works hk hrep hasync hret htab hacc hqueue hqueued hsubs =>
      -- here they go into the queue with the work items
      refine ⟨hc.finite_update _ _, fun a => ?_⟩
      have hold := hc.inFlight a
      dsimp only
      rw [hc.calls_same (by rw [hk]; rfl), hret.inFlight, hqueued, List.flatMap_append,
        List.count_append, hsubs]
      omega
  | @taken w rest g hw hqueued hheap htab hqueue hrest =>
      -- from the queue to the worker
      refine ⟨hc.finite, fun a => ?_⟩
      have hold := hc.inFlight a
      rw [hw, hqueued, List.flatMap_cons, List.count_append] at hold
      simp only [WorkerLoop.refs, List.count_nil] at hold ⊢
      rw [hheap, hrest]
      omega
  | @callFinished k d firstErr a rest heap locals hk hphase hpending hfin =>
      -- the count of `a` and the references of the call go down together
      refine ⟨hc.finite_update _ _, fun b => ?_⟩
      have hold := hc.inFlight b
      have hdec := hfin.inFlight b
      have hcons : ([a] ++ rest).count b = [a].count b + rest.count b := List.count_append
      have hsum := hc.calls_update k
        (.publishing { d with pending := rest, phase := .ready } firstErr) b
      have hrefs : (s.calls k).refs = [a] ++ rest := by
        rw [hk]
        exact hpending
      rw [hrefs, hcons] at hsum
      dsimp only [Globals.queued, CallState.refs] at hold hsum ⊢
      omega
  | @workerFinished k d a rest heap locals hw hphase hpending hfin =>
      refine ⟨hc.finite, fun b => ?_⟩
      have hold := hc.inFlight b
      have hdec := hfin.inFlight b
      have hcons : ([a] ++ rest).count b = [a].count b + rest.count b := List.count_append
      have hrefs : s.worker.refs = [a] ++ rest := by
        rw [hw]
        exact hpending
      rw [hrefs, hcons] at hold
      dsimp only [Globals.queued, WorkerLoop.refs] at hold ⊢
      omega
  | @freed k a stack hk =>
      refine ⟨hc.finite_update _ _, fun b => ?_⟩
      dsimp only
      rw [hc.calls_same (by rw [hk]; rfl)]
      refine Eq.trans ?_ (hc.inFlight b)
      by_cases hne : b = a
      · subst hne
        rw [inFlight_of_none (Function.update_self ..), hs.owned.freeing k b hk]
      · exact inFlight_congr (Function.update_of_ne hne ..)
  | @stopped k stack hk hzero =>
      refine ⟨hc.finite_update _ _, fun b => ?_⟩
      dsimp only
      rw [hc.calls_same (by rw [hk]; rfl)]
      refine Eq.trans ?_ (hc.inFlight b)
      by_cases hmem : b ∈ s.globals.subscribers
      · rw [inFlight_of_none (if_pos hmem), hzero b hmem]
      · exact inFlight_congr (if_neg hmem)

/-! ## The owners -/

theorem Bus.Owned.calls_update (h : s.Owned) (k : K) (st : CallState) (a : Nat) :
    (∑ᶠ k', (Function.update s.calls k st k').detached.count a) + (s.calls k).detached.count a =
      (∑ᶠ k', (s.calls k').detached.count a) + st.detached.count a :=
  Family.finsum_update_add (f := fun _ (st : CallState) => st.detached.count a) (h.finite a) k st

theorem Bus.Owned.finite_update (h : s.Owned) (k : K) (st : CallState) (a : Nat) :
    (Function.support fun k' => (Function.update s.calls k st k').detached.count a).Finite :=
  Family.support_update_finite (f := fun _ (st : CallState) => st.detached.count a)
    (h.finite a) k st

theorem Bus.Owned.calls_start (h : s.Owned) (hk : s.calls k = .notStarted) (st : CallState)
    (a : Nat) : (∑ᶠ k', (Function.update s.calls k st k').detached.count a) =
      (∑ᶠ k', (s.calls k').detached.count a) + st.detached.count a := by
  have hsum := h.calls_update k st a
  rw [hk] at hsum
  exact hsum

theorem Bus.Owned.calls_same (h : s.Owned) {st : CallState}
    (hdet : st.detached = (s.calls k).detached) (a : Nat) :
    (∑ᶠ k', (Function.update s.calls k st k').detached.count a) =
      ∑ᶠ k', (s.calls k').detached.count a := by
  have hsum := h.calls_update k st a
  rw [hdet] at hsum
  omega

/-- A subscription that is about to be freed stays without references. -/
theorem Bus.Owned.freeing_update (h : s.Owned) {st : CallState} {heap : Heap}
    (hst : ∀ a, st = .unsubscribeFree a → heap.inFlight a = 0)
    (hheap : ∀ a, a ∉ s.globals.subscribers → s.globals.heap.inFlight a = 0 →
      heap.inFlight a = 0) (k' : K) (a : Nat)
    (hk' : Function.update s.calls k st k' = .unsubscribeFree a) : heap.inFlight a = 0 := by
  by_cases hkk : k' = k
  · subst hkk
    rw [Function.update_self] at hk'
    exact hst a hk'
  · rw [Function.update_of_ne hkk] at hk'
    refine hheap a ?_ (h.freeing k' a hk')
    apply h.not_mem_of_detached (k := k')
    rw [hk']
    exact List.mem_singleton_self a

theorem Effect.owned (h : Effect s s') (hs : s.Sound) : s'.Owned := by
  have ho := hs.owned
  cases h with
  | moved hsame hflag hstart hworker htoStart hrefs hdet hfree =>
      refine ⟨ho.finite_update _ _, fun a => ?_, fun k' a hk' => ?_⟩
      · dsimp only
        rw [ho.calls_same hdet, hsame.heap, hsame.subscribers]
        exact ho.owner a
      · dsimp only at hk' ⊢
        rw [hsame.heap]
        exact ho.freeing_update hfree (fun _ _ hz => hz) k' a hk'
  | workerMoved hsame =>
      refine ⟨ho.finite, fun a => ?_, fun k' a hk' => ?_⟩
      · dsimp only
        rw [hsame.heap, hsame.subscribers]
        exact ho.owner a
      · dsimp only
        rw [hsame.heap]
        exact ho.freeing k' a hk'
  | workerStarted hw => exact ⟨ho.finite, ho.owner, ho.freeing⟩
  | @subscribed k call sub out hk hrep hasync hzero hactive =>
      refine ⟨ho.finite_update _ _, fun a => ?_, ?_⟩
      · have hold := ho.owner a
        dsimp only
        rw [ho.calls_same (by rw [hk]; rfl), List.count_append]
        by_cases hne : a = s.globals.nextId
        · subst hne
          rw [objects_of_none hs.shaped.next_none] at hold
          rw [objects_of_some (Function.update_self ..), List.count_singleton_self]
          omega
        · rw [objects_congr (Function.update_of_ne hne ..), List.count_singleton,
            if_neg (by simpa using Ne.symm hne)]
          omega
      · refine ho.freeing_update (fun a h => nomatch h) fun a _ hz => ?_
        by_cases hne : a = s.globals.nextId
        · subst hne
          rw [inFlight_of_some (Function.update_self ..), hzero]
        · exact (inFlight_congr (Function.update_of_ne hne ..)).trans hz
  | @detached k st a stack hk hmem hst =>
      -- from the table to the call
      have hdet : st.detached = [a] := by
        rcases hst with rfl | ⟨rfl, -⟩
        · rfl
        · rfl
      refine ⟨ho.finite_update _ _, fun b => ?_, ?_⟩
      · have hold := ho.owner b
        dsimp only
        rw [ho.calls_start hk, hdet, objects_deactivate]
        by_cases hne : b = a
        · subst hne
          have hcount : 0 < s.globals.subscribers.count b := List.count_pos_iff.mpr hmem
          rw [List.count_erase_self, List.count_singleton_self]
          omega
        · rw [List.count_erase_of_ne hne, List.count_singleton,
            if_neg (by simpa using Ne.symm hne)]
          omega
      · refine ho.freeing_update (fun b hb => ?_) fun b _ hz => (inFlight_deactivate _ a b).trans hz
        rcases hst with rfl | ⟨rfl, hz⟩
        · cases hb
        · obtain rfl := CallState.unsubscribeFree.inj hb
          exact (inFlight_deactivate _ a a).trans hz
  | @published k g stack event hk habi hret htab hqueue hqueued =>
      refine ⟨ho.finite_update _ _, fun a => ?_, ?_⟩
      · dsimp only
        rw [ho.calls_same (by rw [hk]; rfl), htab.subscribers, objects_of_outline (hret.outline a)]
        exact ho.owner a
      · exact ho.freeing_update (fun a h => nomatch h) fun a ha hz => hret.inFlight_zero ha hz
  | @accepted k call g event works hk hrep hasync hret htab =>
      refine ⟨ho.finite_update _ _, fun a => ?_, ?_⟩
      · dsimp only
        rw [ho.calls_same (by rw [hk]; rfl), htab.subscribers, objects_of_outline (hret.outline a)]
        exact ho.owner a
      · exact ho.freeing_update (fun a h => nomatch h) fun a ha hz => hret.inFlight_zero ha hz
  | @taken w rest g hw hqueued hheap htab =>
      refine ⟨ho.finite, fun a => ?_, fun k' a hk' => ?_⟩
      · dsimp only
        rw [hheap, htab.subscribers]
        exact ho.owner a
      · dsimp only
        rw [hheap]
        exact ho.freeing k' a hk'
  | @callFinished k d firstErr a rest heap locals hk hphase hpending hfin =>
      refine ⟨ho.finite_update _ _, fun b => ?_, ?_⟩
      · dsimp only
        rw [ho.calls_same (by rw [hk]; rfl), objects_of_outline (hfin.outline b)]
        exact ho.owner b
      · exact ho.freeing_update (fun a h => nomatch h) fun b _ hz => hfin.inFlight_zero hz
  | @workerFinished k d a rest heap locals hw hphase hpending hfin =>
      refine ⟨ho.finite, fun b => ?_, fun k' b hk' => hfin.inFlight_zero (ho.freeing k' b hk')⟩
      dsimp only
      rw [objects_of_outline (hfin.outline b)]
      exact ho.owner b
  | @freed k a stack hk =>
      -- the call gives up the object as it goes from the heap
      refine ⟨ho.finite_update _ _, fun b => ?_, ?_⟩
      · have hold := ho.owner b
        have hsum : (∑ᶠ k', (Function.update s.calls k
            (.returned (.unsubscribe (some a)) .ok none) k').detached.count b) + [a].count b =
            ∑ᶠ k', (s.calls k').detached.count b := by
          have hsum := ho.calls_update k (.returned (.unsubscribe (some a)) .ok none) b
          rw [hk] at hsum
          exact hsum
        dsimp only
        by_cases hne : b = a
        · subst hne
          rw [objects_of_none (Function.update_self ..)]
          rw [List.count_singleton_self] at hsum
          have hle := objects_le_one s.globals.heap b
          omega
        · rw [objects_congr (Function.update_of_ne hne ..)]
          rw [List.count_singleton, if_neg (by simpa using Ne.symm hne)] at hsum
          omega
      · refine ho.freeing_update (fun b h => nomatch h) fun b _ hz => ?_
        by_cases hne : b = a
        · subst hne
          exact inFlight_of_none (Function.update_self ..)
        · exact (inFlight_congr (Function.update_of_ne hne ..)).trans hz
  | @stopped k stack hk hzero =>
      refine ⟨ho.finite_update _ _, fun b => ?_, ?_⟩
      · have hold := ho.owner b
        dsimp only
        rw [ho.calls_same (by rw [hk]; rfl), List.count_nil]
        by_cases hmem : b ∈ s.globals.subscribers
        · have hcount : 0 < s.globals.subscribers.count b := List.count_pos_iff.mpr hmem
          have hle := objects_le_one s.globals.heap b
          rw [objects_of_none (if_pos hmem)]
          omega
        · rw [List.count_eq_zero_of_not_mem hmem] at hold
          rw [objects_congr (if_neg hmem)]
          exact hold
      · refine ho.freeing_update (fun b h => nomatch h) fun b hmem hz => ?_
        exact (inFlight_congr (if_neg hmem)).trans hz

/-! ## Reachable states -/

/-- What every effect preserves. -/
theorem Effect.sound (h : Effect s s') (hs : s.Sound) : s'.Sound :=
  ⟨h.shaped hs, h.counted hs, h.owned hs⟩

omit [DecidableEq K] in
theorem Bus.zero_sound : (Bus.zero Tid K).Sound := by
  have hnone : ∀ a, (Bus.zero Tid K).globals.heap a = none := fun a => rfl
  have hsupp : (Function.support fun _ : K => 0).Finite := by
    rw [Function.support_fun_zero]
    exact Set.finite_empty
  refine ⟨⟨⟨(by decide : 0 < eventQueueCapacity), Nat.zero_le _, Ring.Holds.nil⟩,
    ⟨(fun h => nomatch h), fun h => nomatch h⟩,
    (fun k h => nomatch h), (fun a h => nomatch h), (fun a h => nomatch h), fun w h => nomatch h⟩,
    ⟨fun a => hsupp, fun a => ?_⟩, ⟨fun a => hsupp, fun a => ?_, fun k a h => nomatch h⟩⟩
  · have hsum : ∑ᶠ k, ((Bus.zero Tid K).calls k).refs.count a = 0 :=
      finsum_zero
    rw [inFlight_of_none (hnone a), hsum]
    rfl
  · have hsum : ∑ᶠ k, ((Bus.zero Tid K).calls k).detached.count a = 0 :=
      finsum_zero
    rw [hsum]
    rfl

variable [DecidableEq Tid] {e : Action Tid K} {es : List (Action Tid K)}

/-- Every step of the machine has one of the effects. -/
theorem step_effect (hs : s.Sound) (h : (eventMachine Tid K).step s e s') : Effect s s' :=
  next_effect hs h.2 h.1

theorem run_sound (hs : s.Sound) (h : (eventMachine Tid K).Run s es s') : s'.Sound :=
  h.invariant (fun _ _ _ hu hstep => (step_effect hu hstep).sound hu) hs

theorem sound_of_reachable (h : (eventMachine Tid K).Reachable s) : s.Sound := by
  refine h.invariant (fun s hs => ?_) fun _ _ _ hu hstep => (step_effect hu hstep).sound hu
  obtain rfl : s = Bus.zero Tid K := hs
  exact Bus.zero_sound

end Event
end AppCore
