/-
  AppCore.Event.Lifetime

  The lifetime of a subscription: its count is the number of its references, nothing
  refers to an object that was freed, and its callback never runs again.
-/

import AppCore.Event.References

namespace AppCore
namespace Event

variable {Tid K : Type*} {s s' : Bus Tid K} {a : Nat}

/-- A callback of the subscription is running. -/
def Bus.Running (s : Bus Tid K) (a : Nat) : Prop :=
  (∃ k d, s.worker = .delivering k d ∧ d.phase = .running ∧ d.pending.head? = some a) ∨
    ∃ k d firstErr, s.calls k = .publishing d firstErr ∧ d.phase = .running ∧
      d.pending.head? = some a

/-- The step from `s` to `s'` returns `SYS_OK` to an unsubscribe of the subscription, or to a
    stop that has found it in the table. -/
def FreedBy (s s' : Bus Tid K) (a : Nat) : Prop :=
  ∃ k, (s.calls k = .unsubscribeFree a ∧
      s'.calls k = .returned (.unsubscribe (some a)) .ok none) ∨
    (s.calls k = .stopWait ∧ a ∈ s.globals.subscribers ∧ s'.calls k = .returned .stop .ok none)

/-- The counts, the references to objects that exist, and the guard of `finish_callback`. -/
structure Bus.SubscriptionsLive (s : Bus Tid K) : Prop where
  /-- Finitely many calls refer to a subscription. -/
  finite : ∀ a, (Function.support fun k => (s.calls k).refs.count a).Finite
  inFlight : ∀ a sub, s.globals.heap a = some sub →
    sub.inFlight = s.globals.queued.countP (fun w => a ∈ w.subscribers) +
      s.worker.refs.count a + ∑ᶠ k, (s.calls k).refs.count a
  table : ∀ a ∈ s.globals.subscribers, (s.globals.heap a).isSome
  queue : ∀ w ∈ s.globals.queued, ∀ a ∈ w.subscribers, (s.globals.heap a).isSome
  worker : ∀ a ∈ s.worker.refs, (s.globals.heap a).isSome
  publishers : ∀ k, ∀ a ∈ (s.calls k).refs, (s.globals.heap a).isSome
  unsubscribers : ∀ k, ∀ a ∈ (s.calls k).detached, (s.globals.heap a).isSome
  workerGuard : ∀ k d a rest, s.worker = .delivering k d → d.phase = .finishing →
    d.pending = a :: rest → 0 < s.globals.heap.inFlight a
  publisherGuard : ∀ k d firstErr a rest, s.calls k = .publishing d firstErr →
    d.phase = .finishing → d.pending = a :: rest → 0 < s.globals.heap.inFlight a

/-- A work lists a subscription at most once. -/
theorem count_flatMap_subscribers {works : List (Work K)}
    (h : ∀ w ∈ works, w.subscribers.Nodup) (a : Nat) :
    (works.flatMap Work.subscribers).count a = works.countP fun w => a ∈ w.subscribers := by
  induction works with
  | nil => rfl
  | cons w rest ih =>
      have hrest := ih fun w' hw' => h w' (List.mem_cons_of_mem w hw')
      rw [List.flatMap_cons, List.count_append, hrest, List.countP_cons,
        (h w List.mem_cons_self).count, Nat.add_comm]
      simp only [decide_eq_true_eq]

theorem Bus.Sound.subscriptionsLive (h : s.Sound) : s.SubscriptionsLive where
  finite := h.counted.finite
  inFlight a sub hsub := by
    rw [← inFlight_of_some hsub, ← count_flatMap_subscribers h.shaped.nodup]
    exact h.counted.inFlight a
  table a ha := h.owned.isSome_of_mem ha
  queue w hw a ha := isSome_of_inFlight (h.counted.inFlight_of_queue hw ha)
  worker a ha := isSome_of_inFlight (h.counted.inFlight_of_worker ha)
  publishers k a ha := isSome_of_inFlight (h.counted.inFlight_of_call ha)
  unsubscribers k a ha := h.owned.isSome_of_detached ha
  workerGuard k d a rest hw _ hpending := by
    apply h.counted.inFlight_of_worker
    rw [hw]
    show a ∈ d.pending
    rw [hpending]
    exact List.mem_cons_self
  publisherGuard k d firstErr a rest hk _ hpending := by
    apply h.counted.inFlight_of_call (k := k)
    rw [hk]
    show a ∈ d.pending
    rw [hpending]
    exact List.mem_cons_self

/-- A running callback is one of a subscription that exists. -/
theorem Bus.SubscriptionsLive.isSome_of_running (h : s.SubscriptionsLive) (hrun : s.Running a) :
    (s.globals.heap a).isSome := by
  rcases hrun with ⟨k, d, hw, -, hhead⟩ | ⟨k, d, firstErr, hk, -, hhead⟩
  · apply h.worker
    rw [hw]
    exact List.mem_of_head? hhead
  · apply h.publishers k
    rw [hk]
    exact List.mem_of_head? hhead

/-! ## Objects that were freed -/

theorem isSome_of_outline {heap heap' : Heap} (h : heap'.outline a = heap.outline a) :
    (heap' a).isSome = (heap a).isSome := by
  rw [← isSome_outline, h, isSome_outline]

variable [DecidableEq K]

theorem Effect.nextId_le (h : Effect s s') : s.globals.nextId ≤ s'.globals.nextId := by
  cases h with
  | moved hsame => exact le_of_eq hsame.nextId.symm
  | workerMoved hsame => exact le_of_eq hsame.nextId.symm
  | workerStarted => exact le_refl _
  | subscribed => exact Nat.le_succ _
  | detached => exact le_refl _
  | published event hk habi hret htab => exact le_of_eq htab.nextId.symm
  | accepted event works hk hrep hasync hret htab => exact le_of_eq htab.nextId.symm
  | taken hw hqueued hheap htab => exact le_of_eq htab.nextId.symm
  | callFinished => exact le_refl _
  | workerFinished => exact le_refl _
  | freed => exact le_refl _
  | stopped => exact le_refl _

/-- Whether an object exists changes when it is allocated or freed. -/
theorem Effect.heap_cases (h : Effect s s') (a : Nat) :
    (s'.globals.heap a).isSome = (s.globals.heap a).isSome ∨ a = s.globals.nextId ∨
      (FreedBy s s' a ∧ s'.globals.heap a = none) := by
  cases h with
  | moved hsame => exact Or.inl (by rw [hsame.heap])
  | workerMoved hsame => exact Or.inl (by rw [hsame.heap])
  | workerStarted => exact Or.inl rfl
  | subscribed =>
      by_cases hne : a = s.globals.nextId
      · exact Or.inr (Or.inl hne)
      · exact Or.inl (congrArg Option.isSome (Function.update_of_ne hne ..))
  | @detached k st b stack =>
      refine Or.inl ?_
      show (Function.update s.globals.heap b _ a).isSome = _
      by_cases hne : a = b
      · subst hne
        rw [Function.update_self, Option.isSome_map]
      · rw [Function.update_of_ne hne]
  | published event hk habi hret => exact Or.inl (isSome_of_outline (hret.outline a))
  | accepted event works hk hrep hasync hret =>
      exact Or.inl (isSome_of_outline (hret.outline a))
  | taken hw hqueued hheap => exact Or.inl (by rw [hheap])
  | callFinished hk hphase hpending hfin => exact Or.inl (isSome_of_outline (hfin.outline a))
  | workerFinished hw hphase hpending hfin =>
      exact Or.inl (isSome_of_outline (hfin.outline a))
  | @freed k b stack hk =>
      by_cases hne : a = b
      · subst hne
        exact Or.inr (Or.inr ⟨⟨k, Or.inl ⟨hk, Function.update_self ..⟩⟩,
          Function.update_self ..⟩)
      · exact Or.inl (congrArg Option.isSome (Function.update_of_ne hne ..))
  | @stopped k stack hk hzero =>
      by_cases hmem : a ∈ s.globals.subscribers
      · exact Or.inr (Or.inr ⟨⟨k, Or.inr ⟨hk, hmem, Function.update_self ..⟩⟩, if_pos hmem⟩)
      · exact Or.inl (congrArg Option.isSome (if_neg hmem))

/-- No number is handed out twice, so an object that was freed does not come back. -/
theorem Effect.stays_freed (h : Effect s s') (hlt : a < s.globals.nextId)
    (hnone : s.globals.heap a = none) : s'.globals.heap a = none := by
  rcases h.heap_cases a with hsame | hnext | ⟨-, hfreed⟩
  · rw [hnone] at hsame
    exact Option.not_isSome_iff_eq_none.mp (by rw [hsame]; exact Bool.false_ne_true)
  · exact absurd hnext (Nat.ne_of_lt hlt)
  · exact hfreed

variable [DecidableEq Tid] {e : Action Tid K} {es : List (Action Tid K)} {t : Bus Tid K}

theorem run_stays_freed (hs : s.Sound) (h : (eventMachine Tid K).Run s es t)
    (hlt : a < s.globals.nextId) (hnone : s.globals.heap a = none) :
    t.globals.heap a = none := by
  have hinv : t.Sound ∧ a < t.globals.nextId ∧ t.globals.heap a = none := by
    refine h.invariant (I := fun t => t.Sound ∧ a < t.globals.nextId ∧ t.globals.heap a = none)
      (fun u e v hu hstep => ?_) ⟨hs, hlt, hnone⟩
    obtain ⟨hsound, hlt, hnone⟩ := hu
    have heff := step_effect hsound hstep
    exact ⟨heff.sound hsound, lt_of_lt_of_le hlt heff.nextId_le, heff.stays_freed hlt hnone⟩
  exact hinv.2.2

/-- The counts are right in every reachable state, and a subscription that was freed has no
    running callback from then on. -/
theorem subscription_lifetime (h : (eventMachine Tid K).Reachable s) :
    s.SubscriptionsLive ∧ ∀ e s' a, (eventMachine Tid K).step s e s' →
      (s.globals.heap a).isSome → s'.globals.heap a = none →
      FreedBy s s' a ∧ ∀ es t, (eventMachine Tid K).Run s' es t →
        t.globals.heap a = none ∧ ¬ t.Running a := by
  have hs := sound_of_reachable h
  refine ⟨hs.subscriptionsLive, fun e s' a hstep hsome hnone => ?_⟩
  have heff := step_effect hs hstep
  have hlt := hs.shaped.fresh a hsome
  constructor
  · rcases heff.heap_cases a with hsame | hnext | ⟨hfreed, -⟩
    · rw [hsome, hnone] at hsame
      cases hsame
    · exact absurd hnext (Nat.ne_of_lt hlt)
    · exact hfreed
  · intro es t hrun
    have hfreed := run_stays_freed (heff.sound hs) hrun (lt_of_lt_of_le hlt heff.nextId_le) hnone
    refine ⟨hfreed, fun hrunning => ?_⟩
    have hlive := (run_sound (heff.sound hs) hrun).subscriptionsLive.isSome_of_running hrunning
    rw [hfreed] at hlive
    cases hlive

/-- An unsubscribe that waits for a callback of the worker, and frees. -/
theorem subscription_lifetime_freed :
    ∃ s s' : Bus Unit (Fin 4), s.SubscriptionsLive ∧ (s.globals.heap 1).isSome ∧
      s.calls 3 = .unsubscribeFree 1 ∧ FreedBy s s' 1 ∧
      ∀ es t, (eventMachine Unit (Fin 4)).Run s' es t →
        t.globals.heap 1 = none ∧ ¬ t.Running 1 := by
  have hidle : (Bus.zero Unit (Fin 4)).Idle :=
    ⟨rfl, rfl, fun k => ⟨fun h => (nomatch h), fun h => nomatch h⟩, rfl, rfl⟩
  have hallowed : Machine.Along next StartsIdle (Bus.zero Unit (Fin 4))
      [.call (.caller ()) 0 .start, .threadCreate (.caller ()) .ok, .proceed (.caller ()),
        .call (.caller ()) 1 (.subscribe 7 5 0 true true),
        .call (.caller ()) 2 (.publishAsync 7 none 0 true), .proceed .worker,
        .call (.caller ()) 3 (.unsubscribe (some 1)), .proceed .worker,
        .callbackReturn .worker .ok, .proceed .worker, .proceed (.caller ())] :=
    ⟨Or.inr hidle, fun _ _ => ⟨trivial, fun _ _ => ⟨trivial, fun _ _ => ⟨trivial, fun _ _ =>
      ⟨trivial, fun _ _ => ⟨trivial, fun _ _ => ⟨trivial, fun _ _ => ⟨trivial, fun _ _ =>
      ⟨trivial, fun _ _ => ⟨trivial, fun _ _ => ⟨trivial, fun _ _ => trivial⟩⟩⟩⟩⟩⟩⟩⟩⟩⟩⟩
  have hexec : ∃ s s', Machine.exec next (Bus.zero Unit (Fin 4))
      [.call (.caller ()) 0 .start, .threadCreate (.caller ()) .ok, .proceed (.caller ()),
        .call (.caller ()) 1 (.subscribe 7 5 0 true true),
        .call (.caller ()) 2 (.publishAsync 7 none 0 true), .proceed .worker,
        .call (.caller ()) 3 (.unsubscribe (some 1)), .proceed .worker,
        .callbackReturn .worker .ok, .proceed .worker, .proceed (.caller ())] = some s ∧
      next s (.proceed (.caller ())) = some s' ∧ (s.globals.heap 1).isSome ∧
      s.calls 3 = .unsubscribeFree 1 ∧ s'.globals.heap 1 = none :=
    ⟨_, _, rfl, rfl, rfl, rfl, rfl⟩
  obtain ⟨s, s', hexec, hstep, hsome, hcall, hnone⟩ := hexec
  have hreach : (eventMachine Unit (Fin 4)).Reachable s :=
    ⟨_, _, rfl, Machine.Run.of_exec_along hexec hallowed⟩
  obtain ⟨hlive, hfree⟩ := subscription_lifetime hreach
  obtain ⟨hby, hnever⟩ := hfree _ s' 1 ⟨hstep, trivial⟩ hsome hnone
  exact ⟨s, s', hlive, hsome, hcall, hby, hnever⟩

end Event
end AppCore
