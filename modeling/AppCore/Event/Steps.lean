/-
  AppCore.Event.Steps

  What an atomic step of the event bus can do.  `Effect` lists the changes of the heap,
  the table, the queue, the worker and the calls; `next_effect` shows that every step is
  one of them.
-/

import AppCore.Event.Cases
import AppCore.Lib.Family
import Mathlib.Data.List.ReduceOption
import Mathlib.Data.List.Nodup

namespace AppCore
namespace Event

variable {Tid K : Type*}

/-! ## References -/

/-- The queued works, oldest first. -/
def Globals.queued (g : Globals K) : List (Work K) :=
  (Ring.window g.queue eventQueueCapacity g.queueHead g.queueCount).reduceOption

/-- The event of a work. -/
def Work.event (w : Work K) : SysEvent := SysEvent.make w.eventId w.data w.size

/-- The subscribers whose callback a loop has not started yet. -/
def Delivery.toStart (d : Delivery) : List Nat :=
  if d.phase = .ready then d.pending else d.pending.tail

/-- The number of callbacks of a loop that have not returned yet. -/
def Delivery.toReturn (d : Delivery) : Nat :=
  if d.phase = .ready ∨ d.phase = .running then d.pending.length else d.pending.tail.length

/-- The references of a call: the callbacks it has to finish. -/
def CallState.refs : CallState → List Nat
  | .publishing d _ => d.pending
  | _ => []

/-- The references of the worker: the callbacks of its work it has to finish. -/
def WorkerLoop.refs : WorkerLoop K → List Nat
  | .delivering _ d => d.pending
  | _ => []

/-- The subscription that a call has taken out of the table to free it. -/
def CallState.detached : CallState → List Nat
  | .unsubscribeWait a => [a]
  | .unsubscribeFree a => [a]
  | _ => []

/-- The subscriptions of an event in the table, in order. -/
def Globals.matching (g : Globals K) (eventId : UInt32) : List Nat :=
  g.subscribers.filter fun a => (g.heap a).any fun sub => sub.eventId = eventId

/-! ## Logs -/

/-- The entries of one call. -/
def ofCall [DecidableEq K] {β : Type*} (log : List (K × β)) (k : K) : List β :=
  log.filterMap fun x => if x.1 = k then some x.2 else none

/-- For what the calls were accepted. -/
def accepts (r : List Obs) : List (SysEvent × List Nat) :=
  r.filterMap fun
    | .accepted event subscribers => some (event, subscribers)
    | _ => none

/-- The callbacks that were started. -/
def starts (r : List Obs) : List (SysEvent × Nat) :=
  r.filterMap fun
    | .started event a => some (event, a)
    | _ => none

/-- The results of the callbacks that have returned. -/
def results (r : List Obs) : List SysErr :=
  r.filterMap fun
    | .result ret => some ret
    | _ => none

/-- The first result that is not `SYS_OK`, or `SYS_OK`. -/
def firstError (rs : List SysErr) : SysErr := (rs.find? (· ≠ .ok)).getD .ok

@[simp] theorem accepts_append (r r' : List Obs) : accepts (r ++ r') = accepts r ++ accepts r' :=
  List.filterMap_append
@[simp] theorem starts_append (r r' : List Obs) : starts (r ++ r') = starts r ++ starts r' :=
  List.filterMap_append
@[simp] theorem results_append (r r' : List Obs) : results (r ++ r') = results r ++ results r' :=
  List.filterMap_append

/-- One more result. -/
theorem firstError_append (rs : List SysErr) (ret : SysErr) :
    firstError (rs ++ [ret]) =
      if firstError rs = .ok ∧ ret ≠ .ok then ret else firstError rs := by
  unfold firstError
  rw [List.find?_append]
  cases hfind : rs.find? (· ≠ .ok) with
  | none =>
      by_cases hret : ret = .ok
      · simp [hret]
      · simp [hret]
  | some e =>
      have he : e ≠ .ok := by simpa using List.find?_some hfind
      simp [he]

/-- What a synchronous publishing call has caused so far. -/
def CallState.Reports (r : List Obs) : CallState → Prop
  | .publishing d firstErr => (d.phase ≠ .ready → d.pending ≠ []) ∧ d.event.abiVersion = 1 ∧
      ∃ subscribers, accepts r = [(d.event, subscribers)] ∧
        starts r ++ d.toStart.map (d.event, ·) = subscribers.map (d.event, ·) ∧
        (results r).length + d.toReturn = subscribers.length ∧
        firstErr = firstError (results r)
  | .returned (.publishSync eventId data size) ret _ =>
    (∃ subscribers, accepts r = [(SysEvent.make eventId data size, subscribers)] ∧
      starts r = subscribers.map (SysEvent.make eventId data size, ·) ∧
      (results r).length = subscribers.length ∧ ret = firstError (results r)) ∨
    (ret ≠ .ok ∧ r = [])
  | _ => r = []

/-- For what an asynchronous publishing call was accepted. -/
def CallState.AsyncReports (r : List (SysEvent × List Nat)) : CallState → Prop
  | .returned (.publishAsync eventId data size _) ret _ =>
    (ret = .ok ∧ (size > 0 → data ≠ none) ∧ ∃ subscribers,
      r = [(SysEvent.make eventId (asyncPayload data size) size, subscribers)]) ∨
    (ret ≠ .ok ∧ r = [])
  | _ => r = []

/-! ## Invariants of the globals -/

/-- The queue holds the queued works. -/
structure Globals.QueueOk (g : Globals K) : Prop where
  head_lt : g.queueHead < eventQueueCapacity
  count_le : g.queueCount ≤ eventQueueCapacity
  holds : Ring.Holds g.queue eventQueueCapacity g.queueHead g.queueCount g.queued

theorem queued_of_holds {g : Globals K} {l : List (Work K)}
    (h : Ring.Holds g.queue eventQueueCapacity g.queueHead g.queueCount l) : g.queued = l := by
  rw [Globals.queued, h, List.reduceOption, List.filterMap_map]
  exact List.filterMap_some

theorem QueueOk.of_holds {g : Globals K} {l : List (Work K)}
    (hhead : g.queueHead < eventQueueCapacity) (hcount : g.queueCount ≤ eventQueueCapacity)
    (h : Ring.Holds g.queue eventQueueCapacity g.queueHead g.queueCount l) :
    g.QueueOk ∧ g.queued = l := by
  have hq := queued_of_holds h
  exact ⟨⟨hhead, hcount, by rw [hq]; exact h⟩, hq⟩

/-- Two states of the globals that differ in flags, statistics and empty queue cells. -/
structure SameShared (g g' : Globals K) : Prop where
  heap : g'.heap = g.heap
  nextId : g'.nextId = g.nextId
  subscribers : g'.subscribers = g.subscribers
  queued : g'.queued = g.queued
  queueOk : g'.QueueOk

/-- The flags against the worker. -/
structure Flagged (g : Globals K) (w : WorkerLoop K) : Prop where
  accepting : g.accepting = true → g.running = true
  exited : w = .exited → g.running = false ∧ g.queued = []

/-- A worker that delivers has not left its loop. -/
theorem Flagged.delivering {g : Globals K} {k : K} {d : Delivery}
    (h : g.accepting = true → g.running = true) : Flagged g (.delivering k d) :=
  ⟨h, fun h => nomatch h⟩

/-- A start in progress is the only one, and there is no worker. -/
def Startable (calls : K → CallState) (w : WorkerLoop K) : Prop :=
  ∀ k, calls k = .starting → w = .absent ∧ ∀ k', calls k' = .starting → k' = k

/-! ## Retaining -/

theorem inFlight_of_some {heap : Heap} {a : Nat} {sub : Subscription} (h : heap a = some sub) :
    heap.inFlight a = sub.inFlight := by
  rw [Heap.inFlight, h]

theorem inFlight_of_none {heap : Heap} {a : Nat} (h : heap a = none) : heap.inFlight a = 0 := by
  rw [Heap.inFlight, h]

theorem inFlight_congr {heap heap' : Heap} {a : Nat} (h : heap' a = heap a) :
    heap'.inFlight a = heap.inFlight a := by
  rw [Heap.inFlight, h]
  rfl

/-- The number of objects at an address. -/
def Heap.objects (heap : Heap) (a : Nat) : Nat :=
  match heap a with
  | some _ => 1
  | none => 0

theorem objects_of_some {heap : Heap} {a : Nat} {sub : Subscription} (h : heap a = some sub) :
    heap.objects a = 1 := by
  rw [Heap.objects, h]

theorem objects_of_none {heap : Heap} {a : Nat} (h : heap a = none) : heap.objects a = 0 := by
  rw [Heap.objects, h]

theorem objects_congr {heap heap' : Heap} {a : Nat} (h : heap' a = heap a) :
    heap'.objects a = heap.objects a := by
  rw [Heap.objects, h]
  rfl

theorem objects_le_one (heap : Heap) (a : Nat) : heap.objects a ≤ 1 := by
  unfold Heap.objects
  split
  · exact le_refl 1
  · exact Nat.zero_le 1

theorem isSome_of_objects {heap : Heap} {a : Nat} (h : 0 < heap.objects a) :
    (heap a).isSome := by
  cases hsub : heap a with
  | none =>
      rw [objects_of_none hsub] at h
      exact absurd h (lt_irrefl 0)
  | some sub => rfl

/-- The heap when the subscription `a` is no longer active. -/
def Heap.deactivate (heap : Heap) (a : Nat) : Heap :=
  Function.update heap a ((heap a).map fun sub => { sub with active := false })

theorem inFlight_deactivate (heap : Heap) (a b : Nat) :
    (heap.deactivate a).inFlight b = heap.inFlight b := by
  by_cases hne : b = a
  · subst hne
    rw [Heap.inFlight, Heap.deactivate, Function.update_self, Heap.inFlight]
    cases heap b with
    | none => rfl
    | some sub => rfl
  · exact inFlight_congr (Function.update_of_ne hne ..)

theorem objects_deactivate (heap : Heap) (a b : Nat) :
    (heap.deactivate a).objects b = heap.objects b := by
  by_cases hne : b = a
  · subst hne
    rw [Heap.objects, Heap.deactivate, Function.update_self, Heap.objects]
    cases heap b with
    | none => rfl
    | some sub => rfl
  · exact objects_congr (Function.update_of_ne hne ..)

/-- A subscription that an event is delivered to. -/
def Heap.matches (heap : Heap) (eventId : UInt32) (a : Nat) : Bool :=
  (heap a).any fun sub => sub.active && sub.eventId = eventId

/-- Every matching subscription of a table without duplicates is retained once. -/
theorem retainMatchingSubscribers_spec (eventId : UInt32) (table : List Nat) (heap : Heap)
    (hnodup : table.Nodup) :
    (retainMatchingSubscribers eventId table heap).1 = table.filter (heap.matches eventId) ∧
      ∀ a, (retainMatchingSubscribers eventId table heap).2 a =
        if a ∈ table.filter (heap.matches eventId) then
          (heap a).map fun sub => { sub with inFlight := sub.inFlight + 1 }
        else heap a := by
  induction table generalizing heap with
  | nil => exact ⟨rfl, fun a => by simp [retainMatchingSubscribers]⟩
  | cons a rest ih =>
      obtain ⟨ha, hrest⟩ := List.nodup_cons.mp hnodup
      cases hsub : heap a with
      | none =>
          have hno : heap.matches eventId a = false := by rw [Heap.matches, hsub]; rfl
          simp only [retainMatchingSubscribers, hsub, List.filter_cons, hno]
          exact ih heap hrest
      | some sub =>
          have hmatch : heap.matches eventId a = (sub.active && sub.eventId = eventId) := by
            rw [Heap.matches, hsub]
            rfl
          by_cases hyes : sub.active = true ∧ sub.eventId = eventId
          · have hheap : heap.matches eventId a = true := by
              rw [hmatch]
              simpa using hyes
            -- the rest of the table does not see the change at `a`
            have hsame : ∀ b ∈ rest, Heap.matches (Function.update heap a (some { sub with
                inFlight := sub.inFlight + 1 })) eventId b = heap.matches eventId b := by
              intro b hb
              have hne : b ≠ a := fun heq => ha (heq ▸ hb)
              rw [Heap.matches, Heap.matches, Function.update_of_ne hne]
            obtain ⟨hlist, hheap'⟩ := ih (Function.update heap a (some { sub with
              inFlight := sub.inFlight + 1 })) hrest
            rw [List.filter_congr hsame] at hlist hheap'
            simp only [retainMatchingSubscribers, hsub, if_pos hyes, List.filter_cons, hheap,
              if_true]
            refine ⟨congrArg (a :: ·) hlist, fun b => ?_⟩
            rw [hheap' b]
            by_cases hb : b = a
            · subst hb
              have hnot : b ∉ rest.filter (heap.matches eventId) :=
                fun h => ha (List.mem_of_mem_filter h)
              rw [if_neg hnot, Function.update_self, if_pos List.mem_cons_self, hsub]
              rfl
            · rw [Function.update_of_ne hb]
              simp only [List.mem_cons, hb, false_or]
          · have hheap : heap.matches eventId a = false := by
              rw [hmatch]
              simpa using hyes
            simp only [retainMatchingSubscribers, hsub, if_neg hyes, List.filter_cons, hheap,
              Bool.false_eq_true, if_false]
            exact ih heap hrest

/-- What an object is, apart from its count. -/
def Heap.outline (heap : Heap) (a : Nat) : Option (UInt32 × Bool) :=
  (heap a).map fun sub => (sub.eventId, sub.active)

/-- The heap after a list of subscriptions was retained. -/
structure Retained (heap heap' : Heap) (l : List Nat) : Prop where
  inFlight : ∀ a, heap'.inFlight a = heap.inFlight a + l.count a
  outline : ∀ a, heap'.outline a = heap.outline a

/-- The heap after one callback was finished. -/
structure Finished (heap heap' : Heap) (a : Nat) : Prop where
  inFlight : ∀ b, heap'.inFlight b + [a].count b = heap.inFlight b
  outline : ∀ b, heap'.outline b = heap.outline b

theorem retainMatchingSubscribers_retained (eventId : UInt32) (table : List Nat) (heap : Heap)
    (hnodup : table.Nodup) :
    Retained heap (retainMatchingSubscribers eventId table heap).2
      (retainMatchingSubscribers eventId table heap).1 := by
  obtain ⟨hlist, hheap⟩ := retainMatchingSubscribers_spec eventId table heap hnodup
  have hcount : ∀ a, (table.filter (heap.matches eventId)).count a =
      if a ∈ table.filter (heap.matches eventId) then 1 else 0 := by
    intro a
    exact List.Nodup.count (hnodup.filter _)
  refine ⟨fun a => ?_, fun a => ?_⟩
  · rw [hlist, hcount, Heap.inFlight, hheap a]
    by_cases hmem : a ∈ table.filter (heap.matches eventId)
    · have hm := (List.mem_filter.mp hmem).2
      rw [if_pos hmem, if_pos hmem]
      cases hsub : heap a with
      | none => rw [Heap.matches, hsub] at hm; cases hm
      | some sub => rw [inFlight_of_some hsub]; rfl
    · rw [if_neg hmem, if_neg hmem]
      rfl
  · rw [Heap.outline, Heap.outline, hheap a]
    split
    · cases heap a with
      | none => rfl
      | some sub => rfl
    · rfl

theorem finishCallback_finished {g g' : Globals K} {a : Nat} (h : finishCallback a g = some g')
    (hpos : 0 < g.heap.inFlight a) :
    ∃ heap, g' = { g with heap := heap } ∧ Finished g.heap heap a := by
  obtain ⟨sub, hsub, rfl⟩ := Option.map_eq_some_iff.mp h
  rw [inFlight_of_some hsub] at hpos
  refine ⟨_, rfl, fun b => ?_, fun b => ?_⟩
  · by_cases hb : b = a
    · subst hb
      rw [inFlight_of_some hsub, inFlight_of_some (Function.update_self ..),
        List.count_singleton_self, if_pos hpos]
      show sub.inFlight - 1 + 1 = sub.inFlight
      omega
    · rw [inFlight_congr (Function.update_of_ne hb ..), List.count_singleton,
        if_neg (by simpa using Ne.symm hb)]
      rfl
  · by_cases hb : b = a
    · subst hb
      rw [Heap.outline, Heap.outline, Function.update_self, hsub]
      rfl
    · rw [Heap.outline, Heap.outline, Function.update_of_ne hb]

/-! ## Invariants -/

/-- The callbacks a work will start. -/
def Work.toStart (w : Work K) : List (K × SysEvent × Nat) :=
  w.subscribers.map fun a => (w.call, w.event, a)

/-- The callbacks the worker will start for its current work. -/
def WorkerLoop.toStart : WorkerLoop K → List (K × SysEvent × Nat)
  | .delivering k d => d.toStart.map fun a => (k, d.event, a)
  | _ => []

/-- The globals, the worker and the calls that start it. -/
structure Bus.Shaped (s : Bus Tid K) : Prop where
  queueOk : s.globals.QueueOk
  flagged : Flagged s.globals s.worker
  startable : Startable s.calls s.worker
  fresh : ∀ a, (s.globals.heap a).isSome → a < s.globals.nextId
  active : ∀ a ∈ s.globals.subscribers, ∀ sub, s.globals.heap a = some sub → sub.active = true
  nodup : ∀ w ∈ s.globals.queued, w.subscribers.Nodup

/-- `in_flight` counts the references of the queue, of the worker and of the calls. -/
structure Bus.Counted (s : Bus Tid K) : Prop where
  finite : ∀ a, (Function.support fun k => (s.calls k).refs.count a).Finite
  inFlight : ∀ a, s.globals.heap.inFlight a =
    (s.globals.queued.flatMap Work.subscribers).count a + s.worker.refs.count a +
      ∑ᶠ k, (s.calls k).refs.count a

/-- Every object on the heap is in the table or with one call that will free it. -/
structure Bus.Owned (s : Bus Tid K) : Prop where
  finite : ∀ a, (Function.support fun k => (s.calls k).detached.count a).Finite
  owner : ∀ a, s.globals.subscribers.count a + ∑ᶠ k, (s.calls k).detached.count a =
    s.globals.heap.objects a
  freeing : ∀ k a, s.calls k = .unsubscribeFree a → s.globals.heap.inFlight a = 0

/-- What holds in every state. -/
structure Bus.Sound (s : Bus Tid K) : Prop where
  shaped : s.Shaped
  counted : s.Counted
  owned : s.Owned

section Derived

variable {s : Bus Tid K} {a : Nat}

theorem Bus.Owned.count_le_one (h : s.Owned) (a : Nat) : s.globals.subscribers.count a ≤ 1 := by
  have hown := h.owner a
  have hle := objects_le_one s.globals.heap a
  omega

theorem Bus.Owned.table_nodup (h : s.Owned) : s.globals.subscribers.Nodup :=
  List.nodup_iff_count_le_one.mpr h.count_le_one

theorem isSome_of_inFlight {heap : Heap} (h : 0 < heap.inFlight a) : (heap a).isSome := by
  unfold Heap.inFlight at h
  cases hsub : heap a with
  | none => rw [hsub] at h; exact absurd h (lt_irrefl 0)
  | some sub => rfl

theorem Bus.Owned.isSome_of_mem (h : s.Owned) (ha : a ∈ s.globals.subscribers) :
    (s.globals.heap a).isSome := by
  have hown := h.owner a
  have hpos : 0 < s.globals.subscribers.count a := List.count_pos_iff.mpr ha
  apply isSome_of_objects
  omega

/-- In the table every subscription is active, so the active ones of an event are all. -/
theorem Bus.Sound.filter_matches (h : s.Sound) (eventId : UInt32) :
    s.globals.subscribers.filter (s.globals.heap.matches eventId) =
      s.globals.matching eventId := by
  refine List.filter_congr fun a ha => ?_
  rw [Heap.matches]
  cases hsub : s.globals.heap a with
  | none => rfl
  | some sub =>
      have hact := h.shaped.active a ha sub hsub
      simp [hact]

/-- A callback that a call has to finish is in flight. -/
theorem Bus.Counted.inFlight_of_call (h : s.Counted) {k : K} (ha : a ∈ (s.calls k).refs) :
    0 < s.globals.heap.inFlight a := by
  have hle := single_le_finsum k (h.finite a) fun _ => Nat.zero_le _
  have hpos : 0 < (s.calls k).refs.count a := List.count_pos_iff.mpr ha
  rw [h.inFlight]
  omega

theorem Bus.Counted.inFlight_of_worker (h : s.Counted) (ha : a ∈ s.worker.refs) :
    0 < s.globals.heap.inFlight a := by
  have hpos : 0 < s.worker.refs.count a := List.count_pos_iff.mpr ha
  rw [h.inFlight]
  omega

theorem Bus.Counted.inFlight_of_queue (h : s.Counted) {w : Work K} (hw : w ∈ s.globals.queued)
    (ha : a ∈ w.subscribers) : 0 < s.globals.heap.inFlight a := by
  have hpos : 0 < (s.globals.queued.flatMap Work.subscribers).count a :=
    List.count_pos_iff.mpr (List.mem_flatMap.mpr ⟨w, hw, ha⟩)
  rw [h.inFlight]
  omega

end Derived

/-! ## Effects -/

/-- Two states of the globals with the same table and flags. -/
structure SameTable (g g' : Globals K) : Prop where
  nextId : g'.nextId = g.nextId
  subscribers : g'.subscribers = g.subscribers
  running : g'.running = g.running
  accepting : g'.accepting = g.accepting

variable [DecidableEq K]

/-- The effects of an atomic step. -/
inductive Effect (s : Bus Tid K) : Bus Tid K → Prop
  /-- A call, and the worker it has created or joined, move without a reference. -/
  | moved {k st g w obs stack locals} : SameShared s.globals g → Flagged g w →
      Startable (Function.update s.calls k st) w → w.refs = s.worker.refs →
      w.toStart = s.worker.toStart → st.refs = (s.calls k).refs →
      st.detached = (s.calls k).detached →
      (∀ a, st = .unsubscribeFree a → s.globals.heap.inFlight a = 0) →
      (st = .stopWait → s.worker = .exited) → accepts obs = [] →
      (∀ r, (s.calls k).Reports r → st.Reports (r ++ obs)) →
      (∀ r, (s.calls k).AsyncReports r → st.AsyncReports r) →
      Effect s ⟨g, w, Function.update s.calls k st, stack, locals,
        s.syncLog ++ obs.map fun o => (k, o), s.asyncLog⟩
  | workerMoved {g w stack locals} : SameShared s.globals g → Flagged g w →
      Startable s.calls w → w.refs = s.worker.refs → w.toStart = s.worker.toStart →
      Effect s ⟨g, w, s.calls, stack, locals, s.syncLog, s.asyncLog⟩
  | workerStarted {k d a rest locals} : s.worker = .delivering k d → d.phase = .ready →
      d.pending = a :: rest →
      Effect s ⟨s.globals, .delivering k { d with phase := .running }, s.calls, s.stack, locals,
        s.syncLog, s.asyncLog ++ [(k, .started d.event a)]⟩
  | subscribed {k call sub out} : s.calls k = .notStarted →
      CallState.Reports [] (.returned call .ok out) →
      CallState.AsyncReports [] (.returned call .ok out) →
      sub.inFlight = 0 → sub.active = true →
      Effect s ⟨{ s.globals with
          heap := Function.update s.globals.heap s.globals.nextId (some sub)
          nextId := s.globals.nextId + 1
          subscribers := s.globals.subscribers ++ [s.globals.nextId] },
        s.worker, Function.update s.calls k (.returned call .ok out), s.stack, s.locals,
        s.syncLog, s.asyncLog⟩
  | detached {k st a stack} : s.calls k = .notStarted → a ∈ s.globals.subscribers →
      (st = .unsubscribeWait a ∨ (st = .unsubscribeFree a ∧ s.globals.heap.inFlight a = 0)) →
      Effect s ⟨{ s.globals with
          heap := s.globals.heap.deactivate a
          subscribers := s.globals.subscribers.erase a },
        s.worker, Function.update s.calls k st, stack, s.locals, s.syncLog, s.asyncLog⟩
  | published {k g stack} (event : SysEvent) : s.calls k = .notStarted → event.abiVersion = 1 →
      Retained s.globals.heap g.heap (s.globals.matching event.id) → SameTable s.globals g →
      g.QueueOk → g.queued = s.globals.queued →
      Effect s ⟨g, s.worker, Function.update s.calls k
          (.publishing ⟨event, s.globals.matching event.id, .ready⟩ .ok), stack, s.locals,
        s.syncLog ++ [(k, .accepted event (s.globals.matching event.id))], s.asyncLog⟩
  | accepted {k call g} (event : SysEvent) (works : List (Work K)) : s.calls k = .notStarted →
      CallState.Reports [] (.returned call .ok none) →
      CallState.AsyncReports [(event, s.globals.matching event.id)] (.returned call .ok none) →
      Retained s.globals.heap g.heap (s.globals.matching event.id) → SameTable s.globals g →
      s.globals.accepting = true → g.QueueOk → g.queued = s.globals.queued ++ works →
      works.flatMap Work.subscribers = s.globals.matching event.id →
      works.flatMap Work.toStart =
        (s.globals.matching event.id).map (fun a => (k, event, a)) →
      (∀ w ∈ works, w.subscribers.Nodup) →
      Effect s ⟨g, s.worker, Function.update s.calls k (.returned call .ok none), s.stack,
        s.locals, s.syncLog, s.asyncLog ++ [(k, .accepted event (s.globals.matching event.id))]⟩
  | taken {w rest g} : s.worker = .waiting → s.globals.queued = w :: rest →
      g.heap = s.globals.heap → SameTable s.globals g → g.QueueOk → g.queued = rest →
      Effect s ⟨g, .delivering w.call ⟨w.event, w.subscribers, .ready⟩, s.calls, s.stack,
        s.locals, s.syncLog, s.asyncLog⟩
  | callFinished {k d firstErr a rest heap locals} : s.calls k = .publishing d firstErr →
      d.phase = .finishing → d.pending = a :: rest → Finished s.globals.heap heap a →
      Effect s ⟨{ s.globals with heap := heap }, s.worker, Function.update s.calls k
          (.publishing { d with pending := rest, phase := .ready } firstErr), s.stack, locals,
        s.syncLog, s.asyncLog⟩
  | workerFinished {k d a rest heap locals} : s.worker = .delivering k d →
      d.phase = .finishing → d.pending = a :: rest → Finished s.globals.heap heap a →
      Effect s ⟨{ s.globals with heap := heap },
        .delivering k { d with pending := rest, phase := .ready }, s.calls, s.stack, locals,
        s.syncLog, s.asyncLog⟩
  | freed {k a stack} : s.calls k = .unsubscribeFree a →
      Effect s ⟨{ s.globals with heap := Function.update s.globals.heap a none }, s.worker,
        Function.update s.calls k (.returned (.unsubscribe (some a)) .ok none), stack,
        s.locals, s.syncLog, s.asyncLog⟩
  | stopped {k stack} : s.calls k = .stopWait →
      (∀ a ∈ s.globals.subscribers, s.globals.heap.inFlight a = 0) →
      Effect s ⟨{ s.globals with
          heap := fun a => if a ∈ s.globals.subscribers then none else s.globals.heap a
          subscribers := [] },
        s.worker, Function.update s.calls k (.returned .stop .ok none), stack, s.locals,
        s.syncLog, s.asyncLog⟩

section Sections

variable {s s' : Bus Tid K} {k : K} {g : Globals K}

omit [DecidableEq K] in
theorem SameShared.refl (h : g.QueueOk) : SameShared g g := ⟨rfl, rfl, rfl, rfl, h⟩

omit [DecidableEq K] in
/-- The flags, the statistics and the thread pointer are no part of the shared state. -/
theorem SameShared.withFlags (h : g.QueueOk) (running accepting thread : Bool)
    (stats : EventStats) : SameShared g { g with
      running := running, accepting := accepting, thread := thread, stats := stats } :=
  ⟨rfl, rfl, rfl, rfl, ⟨h.head_lt, h.count_le, h.holds⟩⟩

theorem startable_update {calls : K → CallState} {w : WorkerLoop K} {st : CallState}
    (h : Startable calls w) (hst : st ≠ .starting) : Startable (Function.update calls k st) w := by
  have hold : ∀ k', Function.update calls k st k' = .starting → calls k' = .starting := by
    intro k' hk'
    by_cases hkk : k' = k
    · subst hkk
      rw [Function.update_self] at hk'
      exact absurd hk' hst
    · rwa [Function.update_of_ne hkk] at hk'
  intro k' hk'
  obtain ⟨hw, huniq⟩ := h k' (hold k' hk')
  exact ⟨hw, fun k'' hk'' => huniq k'' (hold k'' hk'')⟩

/-- A state other than those that `sys_event_bus_start` opens a session with and that the join
    leads to. -/
def CallState.Inner : CallState → Prop
  | .starting => False
  | .stopWait => False
  | _ => True

theorem CallState.Inner.ne_starting {st : CallState} (h : st.Inner) : st ≠ .starting := by
  rintro rfl
  exact h

theorem CallState.Inner.ne_stopWait {st : CallState} (h : st.Inner) : st ≠ .stopWait := by
  rintro rfl
  exact h

/-- A call that moves without a reference, and leaves no record. -/
theorem Effect.quiet {st : CallState} {stack : Thread Tid → List K}
    {locals : Thread Tid → ThreadLocal} (hs : s.Sound) (hshared : SameShared s.globals g)
    (hflags : Flagged g s.worker) (hst : st.Inner) (hrefs : st.refs = (s.calls k).refs)
    (hdet : st.detached = (s.calls k).detached)
    (hfree : ∀ a, st = .unsubscribeFree a → s.globals.heap.inFlight a = 0)
    (hrep : ∀ r, (s.calls k).Reports r → st.Reports r)
    (hasync : ∀ r, (s.calls k).AsyncReports r → st.AsyncReports r) :
    Effect s ⟨g, s.worker, Function.update s.calls k st, stack, locals, s.syncLog,
      s.asyncLog⟩ := by
  have hmoved : Effect s ⟨g, s.worker, Function.update s.calls k st, stack, locals,
      s.syncLog ++ [].map fun o => (k, o), s.asyncLog⟩ :=
    Effect.moved hshared hflags (startable_update hs.shaped.startable hst.ne_starting) rfl rfl
      hrefs hdet hfree (fun h => absurd h hst.ne_stopWait) rfl
      (fun r hr => by rw [List.append_nil]; exact hrep r hr) hasync
  rw [List.map_nil, List.append_nil] at hmoved
  exact hmoved

/-- A call that moves without a reference, and leaves one record. -/
theorem Effect.calledBack {st : CallState} {stack : Thread Tid → List K}
    {locals : Thread Tid → ThreadLocal} (hs : s.Sound) (o : Obs)
    (hrefs : st.refs = (s.calls k).refs) (hdet : st.detached = (s.calls k).detached)
    (hfree : ∀ a, st = .unsubscribeFree a → s.globals.heap.inFlight a = 0)
    (hst : st.Inner) (ho : accepts [o] = [])
    (hrep : ∀ r, (s.calls k).Reports r → st.Reports (r ++ [o]))
    (hasync : ∀ r, (s.calls k).AsyncReports r → st.AsyncReports r) :
    Effect s ⟨s.globals, s.worker, Function.update s.calls k st, stack, locals,
      s.syncLog ++ [(k, o)], s.asyncLog⟩ := by
  have hmoved : Effect s ⟨s.globals, s.worker, Function.update s.calls k st, stack, locals,
      s.syncLog ++ [o].map fun o => (k, o), s.asyncLog⟩ :=
    Effect.moved (SameShared.refl hs.shaped.queueOk) hs.shaped.flagged
      (startable_update hs.shaped.startable hst.ne_starting) rfl rfl hrefs hdet hfree
      (fun h => absurd h hst.ne_stopWait) ho hrep hasync
  exact hmoved

/-- A call that is answered in its first section. -/
theorem Effect.answer {call : Call} {ret : SysErr} {out : Option Nat} (hs : s.Sound)
    (hk : s.calls k = .notStarted) (hshared : SameShared s.globals g)
    (hflags : Flagged g s.worker) (hrep : CallState.Reports [] (.returned call ret out))
    (hasync : CallState.AsyncReports [] (.returned call ret out)) :
    Effect s (({ s with globals := g } : Bus Tid K).setCall k (.returned call ret out)) := by
  refine Effect.quiet hs hshared hflags trivial ?_ ?_ (fun a h => nomatch h) ?_ ?_
  · rw [hk]
    rfl
  · rw [hk]
    rfl
  · intro r hr
    rw [hk] at hr
    obtain rfl : r = [] := hr
    exact hrep
  · intro r hr
    rw [hk] at hr
    obtain rfl : r = [] := hr
    exact hasync

variable [DecidableEq Tid] {t : Thread Tid}

theorem start_effect (hs : s.Sound) (hk : s.calls k = .notStarted)
    (hidle : StartsIdle s (.call t k .start)) (h : begin s t k .start = some s') :
    Effect s s' := by
  cases begin_cases h with
  | startRefused _ =>
      exact Effect.answer hs hk (SameShared.refl hs.shaped.queueOk) hs.shaped.flagged rfl rfl
  | started hrun =>
      obtain hcontra | hidle := hidle
      · rw [hrun] at hcontra
        cases hcontra
      -- on an idle bus the queue was empty before it is emptied
      have hempty : s.globals.queued = [] := by
        have hlen := hs.shaped.queueOk.holds.length
        rw [hidle.queueCount] at hlen
        exact List.length_eq_zero_iff.mp hlen
      obtain ⟨hok, hqueued⟩ := QueueOk.of_holds (g := { s.globals with
        queueHead := 0, queueCount := 0, stats := {}, running := true, accepting := true })
        (by decide : 0 < eventQueueCapacity) (Nat.zero_le _) Ring.Holds.nil
      have hmoved : Effect s ⟨{ s.globals with
          queueHead := 0, queueCount := 0, stats := {}, running := true, accepting := true },
          s.worker, Function.update s.calls k .starting,
          Function.update s.stack t (k :: s.stack t), s.locals,
          s.syncLog ++ [].map fun o => (k, o), s.asyncLog⟩ := by
        refine Effect.moved ⟨rfl, rfl, rfl, hqueued.trans hempty.symm, hok⟩
          ⟨fun _ => rfl, fun hw => ?_⟩ ?_ rfl rfl (by rw [hk]; rfl) (by rw [hk]; rfl)
          (fun a h => nomatch h) (fun h => nomatch h) rfl (fun r hr => ?_) (fun r hr => ?_)
        · rw [hidle.worker] at hw
          cases hw
        · have honly : ∀ k', Function.update s.calls k .starting k' = .starting → k' = k := by
            intro k' hk'
            by_contra hne
            rw [Function.update_of_ne hne] at hk'
            exact (hidle.calls k').1 hk'
          intro k' hk'
          refine ⟨hidle.worker, fun k'' hk'' => ?_⟩
          rw [honly k' hk', honly k'' hk'']
        · rw [hk] at hr
          obtain rfl : r = [] := hr
          rfl
        · rw [hk] at hr
          exact hr
      rw [List.map_nil, List.append_nil] at hmoved
      exact hmoved

/-- A call that goes on after its first section without a reference. -/
theorem Effect.enter {st : CallState} (hs : s.Sound) (hk : s.calls k = .notStarted)
    (hshared : SameShared s.globals g) (hflags : Flagged g s.worker) (hst : st.Inner)
    (hrefs : st.refs = []) (hdet : st.detached = []) (hrep : st.Reports [])
    (hasync : st.AsyncReports []) (hfree : ∀ a, st ≠ .unsubscribeFree a) :
    Effect s (({ s with globals := g } : Bus Tid K).enter t k st) := by
  refine Effect.quiet hs hshared hflags hst ?_ ?_ (fun a h => absurd h (hfree a)) ?_ ?_
  · rw [hrefs, hk]
    rfl
  · rw [hdet, hk]
    rfl
  · intro r hr
    rw [hk] at hr
    obtain rfl : r = [] := hr
    exact hrep
  · intro r hr
    rw [hk] at hr
    obtain rfl : r = [] := hr
    exact hasync

theorem stop_effect (hs : s.Sound) (hk : s.calls k = .notStarted)
    (h : begin s t k .stop = some s') : Effect s s' := by
  have hflag := hs.shaped.flagged
  cases begin_cases h with
  | stopIdle _ =>
      exact Effect.answer hs hk (SameShared.withFlags hs.shaped.queueOk _ _ _ _)
        ⟨(fun h => nomatch h), hflag.exited⟩ rfl rfl
  | stopping _ =>
      exact Effect.enter hs hk (SameShared.withFlags hs.shaped.queueOk _ _ _ _)
        ⟨(fun h => nomatch h), fun hw => ⟨rfl, (hflag.exited hw).2⟩⟩ trivial rfl rfl rfl rfl
        fun a h => nomatch h

theorem subscribe_effect {eventId : UInt32} {callback privateData : Nat}
    {outSubscription memory : Bool} (hs : s.Sound) (hk : s.calls k = .notStarted)
    (h : begin s t k (.subscribe eventId callback privateData outSubscription memory) =
      some s') : Effect s s' := by
  cases begin_cases h with
  | subscribeRefused _ =>
      exact Effect.answer hs hk (SameShared.refl hs.shaped.queueOk) hs.shaped.flagged rfl rfl
  | subscribed _ _ _ => exact Effect.subscribed hk rfl rfl rfl rfl

theorem unsubscribe_effect {subscription : Option Nat} (hs : s.Sound)
    (hk : s.calls k = .notStarted)
    (h : begin s t k (.unsubscribe subscription) = some s') : Effect s s' := by
  cases begin_cases h with
  | unsubscribeRefused _ =>
      exact Effect.answer hs hk (SameShared.refl hs.shaped.queueOk) hs.shaped.flagged rfl rfl
  | @unsubscribed a _ _ hmem =>
      have hsame : Heap.inFlight (Function.update s.globals.heap a
          ((s.globals.heap a).map fun sub => { sub with active := false })) a =
          s.globals.heap.inFlight a := inFlight_deactivate s.globals.heap a a
      rw [hsame]
      by_cases hpos : s.globals.heap.inFlight a > 0
      · rw [if_pos hpos]
        exact Effect.detached hk hmem (Or.inl rfl)
      · rw [if_neg hpos]
        exact Effect.detached hk hmem (Or.inr ⟨rfl, by omega⟩)

omit [DecidableEq Tid] [DecidableEq K] in
/-- What is retained for an event are its matching subscriptions. -/
theorem Bus.Sound.retain_matching (hs : s.Sound) {eventId : UInt32} {subscribers : List Nat}
    {heap : Heap}
    (h : retainMatchingSubscribers eventId s.globals.subscribers s.globals.heap =
      (subscribers, heap)) :
    subscribers = s.globals.matching eventId ∧
      Retained s.globals.heap heap (s.globals.matching eventId) := by
  have hret := retainMatchingSubscribers_retained eventId s.globals.subscribers
    s.globals.heap hs.owned.table_nodup
  have hlist := (retainMatchingSubscribers_spec eventId s.globals.subscribers
    s.globals.heap hs.owned.table_nodup).1
  rw [hs.filter_matches, h] at hlist
  rw [h] at hret
  obtain rfl : subscribers = s.globals.matching eventId := hlist
  exact ⟨rfl, hret⟩

theorem publishSync_effect {eventId : UInt32} {data : Option (List UInt8)} {size : Nat}
    (hs : s.Sound) (hk : s.calls k = .notStarted)
    (h : begin s t k (.publishSync eventId data size) = some s') : Effect s s' := by
  cases begin_cases h with
  | syncRefused hret =>
      exact Effect.answer hs hk (SameShared.refl hs.shaped.queueOk) hs.shaped.flagged
        (Or.inr ⟨hret, rfl⟩) rfl
  | @syncAccepted _ _ _ subscribers heap _ hretain =>
      obtain ⟨rfl, hret⟩ := hs.retain_matching hretain
      have hq := hs.shaped.queueOk
      exact Effect.published (SysEvent.make eventId data size) hk rfl hret
        ⟨rfl, rfl, rfl, rfl⟩ ⟨hq.head_lt, hq.count_le, hq.holds⟩ rfl

theorem publishAsync_effect {eventId : UInt32} {data : Option (List UInt8)} {size : Nat}
    {memory : Bool} (hs : s.Sound) (hk : s.calls k = .notStarted)
    (h : begin s t k (.publishAsync eventId data size memory) = some s') : Effect s s' := by
  have hq := hs.shaped.queueOk
  cases begin_cases h with
  | asyncRefused hret =>
      exact Effect.answer hs hk (SameShared.refl hq) hs.shaped.flagged rfl (Or.inr ⟨hret, rfl⟩)
  | asyncFull _ =>
      exact Effect.answer hs hk (SameShared.withFlags hq _ _ _ _)
        ⟨hs.shaped.flagged.accepting, hs.shaped.flagged.exited⟩ rfl (Or.inr ⟨by decide, rfl⟩)
  | @asyncUnmatched _ _ _ _ heap hacc hlt hretain hdata =>
      -- the queue entry is cleared again
      obtain ⟨hnone, hret⟩ := hs.retain_matching hretain
      let g : Globals K := { s.globals with
        heap := heap
        queue := Function.update s.globals.queue
          ((s.globals.queueHead + s.globals.queueCount) % eventQueueCapacity) none
        stats := { s.globals.stats with
          asynchronousPublishCount := s.globals.stats.asynchronousPublishCount + 1 } }
      obtain ⟨hok, hqueued⟩ := QueueOk.of_holds (g := g) hq.head_lt hq.count_le
        (hq.holds.update_free hlt none)
      have heff : Effect s ⟨g, s.worker, Function.update s.calls k
          (.returned (.publishAsync eventId data size memory) .ok none), s.stack, s.locals,
          s.syncLog, s.asyncLog ++ [(k, .accepted (SysEvent.make eventId (asyncPayload data size)
            size) (s.globals.matching eventId))]⟩ :=
        Effect.accepted (SysEvent.make eventId (asyncPayload data size) size) [] hk rfl
          (Or.inl ⟨rfl, hdata, _, rfl⟩) hret ⟨rfl, rfl, rfl, rfl⟩ hacc hok
          (by rw [hqueued, List.append_nil]) hnone
          (by show [] = (s.globals.matching eventId).map _; rw [← hnone]; rfl)
          (fun w hw => nomatch hw)
      rw [← hnone] at heff
      exact heff
  | @asyncQueued _ _ _ _ subscribers heap hacc hlt hretain _ hdata =>
      obtain ⟨rfl, hret⟩ := hs.retain_matching hretain
      obtain ⟨hok, hqueued⟩ := QueueOk.of_holds (g := { s.globals with
        heap := heap
        queue := Function.update s.globals.queue
          ((s.globals.queueHead + s.globals.queueCount) % eventQueueCapacity) (some {
            eventId := eventId, data := asyncPayload data size, size := size
            subscribers := s.globals.matching eventId, call := k })
        queueCount := s.globals.queueCount + 1
        stats := { s.globals.stats with
          asynchronousPublishCount := s.globals.stats.asynchronousPublishCount + 1
          queueHighWatermark :=
            if s.globals.queueCount + 1 > s.globals.stats.queueHighWatermark then
              s.globals.queueCount + 1
            else s.globals.stats.queueHighWatermark } })
        hq.head_lt hlt (hq.holds.push hlt _)
      exact Effect.accepted (SysEvent.make eventId (asyncPayload data size) size) [_] hk rfl
        (Or.inl ⟨rfl, hdata, _, rfl⟩) hret ⟨rfl, rfl, rfl, rfl⟩ hacc hok hqueued
        (by simp; rfl) (by simp [Work.toStart, Work.event]; rfl)
        (fun w hw => by
          obtain rfl := List.mem_singleton.mp hw
          exact hs.owned.table_nodup.filter _)

theorem begin_effect {call : Call} (hs : s.Sound) (hk : s.calls k = .notStarted)
    (hidle : StartsIdle s (.call t k call)) (h : begin s t k call = some s') : Effect s s' := by
  cases call with
  | start => exact start_effect hs hk hidle h
  | stop => exact stop_effect hs hk h
  | subscribe eventId callback privateData outSubscription memory =>
      exact subscribe_effect hs hk h
  | unsubscribe subscription => exact unsubscribe_effect hs hk h
  | publishSync eventId data size => exact publishSync_effect hs hk h
  | publishAsync eventId data size memory => exact publishAsync_effect hs hk h

/-! ## Delivery -/

omit [DecidableEq Tid] [DecidableEq K] in
/-- The sections of a loop over subscribers. -/
theorem advance_spec {d d' : Delivery} {g g' : Globals K} {started : Option Nat}
    (h : d.advance g = some (g', d', started))
    (hpos : ∀ a ∈ d.pending, 0 < g.heap.inFlight a) :
    (∃ a rest, d.phase = .ready ∧ d.pending = a :: rest ∧ g' = g ∧
        d' = { d with phase := .running } ∧ started = some a) ∨
      (d.phase = .failed ∧ g' = countFailure g ∧ d' = { d with phase := .finishing } ∧
        started = none) ∨
      ∃ a rest heap, d.phase = .finishing ∧ d.pending = a :: rest ∧
        g' = { g with heap := heap } ∧ Finished g.heap heap a ∧
        d' = { d with pending := rest, phase := .ready } ∧ started = none := by
  cases advance_cases h with
  | @starts a rest hphase hpending =>
      exact Or.inl ⟨a, rest, hphase, hpending, rfl, rfl, rfl⟩
  | counted hphase => exact Or.inr (Or.inl ⟨hphase, rfl, rfl, rfl⟩)
  | @finished a rest _ hphase hpending hfin =>
      obtain ⟨heap, rfl, hfinished⟩ :=
        finishCallback_finished hfin (hpos a (by rw [hpending]; exact List.mem_cons_self))
      exact Or.inr (Or.inr ⟨a, rest, heap, hphase, hpending, rfl, hfinished, rfl, rfl⟩)

/-- The loop of a publishing call is over. -/
theorem published_effect {d : Delivery} {firstErr : SysErr} (hs : s.Sound)
    (hk : s.calls k = .publishing d firstErr) (hend : d.atEnd) :
    Effect s (s.leave t k (.publishSync d.event.id d.event.data d.event.size) firstErr) := by
  obtain ⟨hphase, hpending⟩ := hend
  refine Effect.quiet hs (SameShared.refl hs.shaped.queueOk) hs.shaped.flagged trivial ?_ ?_
    (fun a h => nomatch h) (fun r hr => ?_) (fun r hr => ?_)
  · rw [hk]
    exact hpending.symm
  · rw [hk]
    rfl
  · -- the record is complete
    rw [hk] at hr
    obtain ⟨-, habi, subscribers, haccepts, hstarts, hresults, herr⟩ := hr
    simp only [Delivery.toStart, Delivery.toReturn, hphase, hpending, true_or, if_true,
      List.map_nil, List.append_nil, List.length_nil, Nat.add_zero] at hstarts hresults
    have hmake : SysEvent.make d.event.id d.event.data d.event.size = d.event := by
      rw [SysEvent.make, ← habi]
    refine Or.inl ⟨subscribers, ?_, ?_, hresults, herr⟩
    · rw [hmake]
      exact haccepts
    · rw [hmake]
      exact hstarts
  · rw [hk] at hr
    exact hr

omit [DecidableEq Tid] in
/-- A section of the loop of a publishing call that keeps what is still to be delivered. -/
theorem Effect.publishing {d d' : Delivery} {firstErr : SysErr} (obs : List Obs)
    {locals : Thread Tid → ThreadLocal} (hs : s.Sound)
    (hk : s.calls k = .publishing d firstErr) (hshared : SameShared s.globals g)
    (hflags : Flagged g s.worker) (hpend : d'.pending = d.pending) (hacc : accepts obs = [])
    (hrep : ∀ r, CallState.Reports r (.publishing d firstErr) →
      CallState.Reports (r ++ obs) (.publishing d' firstErr)) :
    Effect s ⟨g, s.worker, Function.update s.calls k (.publishing d' firstErr), s.stack,
      locals, s.syncLog ++ obs.map fun o => (k, o), s.asyncLog⟩ := by
  refine Effect.moved hshared hflags
    (startable_update hs.shaped.startable fun h => nomatch h) rfl rfl ?_ ?_
    (fun a h => nomatch h) (fun h => nomatch h) hacc (fun r hr => ?_) (fun r hr => ?_)
  · rw [hk]
    exact hpend
  · rw [hk]
    rfl
  · rw [hk] at hr
    exact hrep r hr
  · rw [hk] at hr
    exact hr

theorem publishing_effect {d d' : Delivery} {firstErr : SysErr} {g' : Globals K}
    {started : Option Nat} (hs : s.Sound) (hk : s.calls k = .publishing d firstErr)
    (hadv : d.advance s.globals = some (g', d', started)) :
    Effect s (({ s with
      globals := g'
      locals := Function.update s.locals t ((s.locals t).enterCallback started)
      syncLog := s.syncLog ++ (startedObs d.event started).map fun o => (k, o) } :
    Bus Tid K).setCall k (.publishing d' firstErr)) := by
  have hpos : ∀ a ∈ d.pending, 0 < s.globals.heap.inFlight a := fun a ha =>
    hs.counted.inFlight_of_call (k := k) (by rw [hk]; exact ha)
  rcases advance_spec hadv hpos with ⟨a, rest, hphase, hpending, rfl, rfl, rfl⟩ |
    ⟨hphase, rfl, rfl, rfl⟩ | ⟨a, rest, heap, hphase, hpending, rfl, hfinished, rfl, rfl⟩
  · -- a callback is started
    refine Effect.publishing [.started d.event a] hs hk
      (SameShared.refl hs.shaped.queueOk) hs.shaped.flagged rfl rfl (fun r hr => ?_)
    obtain ⟨-, habi, subscribers, haccepts, hstarts, hresults, herr⟩ := hr
    simp only [Delivery.toStart, Delivery.toReturn, hphase, hpending, true_or, if_true]
      at hstarts hresults
    refine ⟨fun _ => by rw [hpending]; exact List.cons_ne_nil a rest, habi, subscribers, ?_, ?_,
      ?_, ?_⟩
    · rw [accepts_append, haccepts]
      rfl
    · rw [starts_append, ← hstarts]
      simp [Delivery.toStart, hpending, starts]
    · rw [results_append, Delivery.toReturn, if_pos (Or.inr rfl)]
      show (results r ++ []).length + d.pending.length = _
      rw [List.append_nil, hpending]
      exact hresults
    · rw [results_append, herr]
      exact congrArg firstError (List.append_nil _).symm
  · -- its failure is counted
    have hq := hs.shaped.queueOk
    refine Effect.publishing [] hs hk
      ⟨rfl, rfl, rfl, rfl, ⟨hq.head_lt, hq.count_le, hq.holds⟩⟩
      ⟨hs.shaped.flagged.accepting, hs.shaped.flagged.exited⟩ rfl rfl (fun r hr => ?_)
    obtain ⟨hne, habi, subscribers, haccepts, hstarts, hresults, herr⟩ := hr
    simp only [Delivery.toStart, Delivery.toReturn, hphase, reduceCtorEq, or_self, if_false]
      at hstarts hresults
    rw [List.append_nil]
    refine ⟨fun _ => hne (by rw [hphase]; decide), habi, subscribers, haccepts, ?_, ?_, herr⟩
    · simpa [Delivery.toStart] using hstarts
    · simpa [Delivery.toReturn] using hresults
  · -- `finish_callback`
    have heff : Effect s ⟨{ s.globals with heap := heap }, s.worker,
        Function.update s.calls k
          (.publishing { d with pending := rest, phase := .ready } firstErr), s.stack,
        Function.update s.locals t ((s.locals t).enterCallback none), s.syncLog,
        s.asyncLog⟩ := Effect.callFinished hk hphase hpending hfinished
    convert heff using 1
    simp [startedObs, Bus.setCall]

theorem proceedCall_effect (hs : s.Sound) (h : proceedCall s t k = some s') : Effect s s' := by
  have hsame := SameShared.refl hs.shaped.queueOk
  cases proceedCall_cases h with
  | published hk hend => exact published_effect hs hk hend
  | publishing hk hadv => exact publishing_effect hs hk hadv
  | unsubscribeWaits _ _ =>
      exact Effect.workerMoved hsame hs.shaped.flagged hs.shaped.startable rfl rfl
  | @unsubscribed a hk hpos =>
      refine Effect.quiet hs hsame hs.shaped.flagged trivial (by rw [hk]; rfl) (by rw [hk]; rfl)
        (fun b hb => ?_) (fun r hr => ?_) (fun r hr => ?_)
      · obtain rfl : a = b := CallState.unsubscribeFree.inj hb
        omega
      · rw [hk] at hr
        exact hr
      · rw [hk] at hr
        exact hr
  | freed hk => exact Effect.freed hk
  | stored hk =>
      refine Effect.quiet hs (SameShared.withFlags hs.shaped.queueOk _ _ _ _)
        ⟨hs.shaped.flagged.accepting, hs.shaped.flagged.exited⟩ trivial (by rw [hk]; rfl)
        (by rw [hk]; rfl) (fun a h => nomatch h) (fun r hr => ?_) (fun r hr => ?_)
      · rw [hk] at hr
        exact hr
      · rw [hk] at hr
        exact hr
  | stopWaits _ _ =>
      exact Effect.workerMoved hsame hs.shaped.flagged hs.shaped.startable rfl rfl
  | stopped hk hnone =>
      refine Effect.stopped hk fun a ha => ?_
      have hzero := List.any_eq_false.mp hnone a ha
      simpa using hzero

omit [DecidableEq Tid] in
/-- At the head of its loop the worker waits, leaves or takes the next work. -/
theorem eventWorker_effect (hs : s.Sound) (hw : s.worker = .waiting) :
    Effect s { s with
      globals := (eventWorker s.globals).1, worker := (eventWorker s.globals).2 } := by
  have hq := hs.shaped.queueOk
  have hflag := hs.shaped.flagged
  have hsame := SameShared.refl hq
  -- while there is a worker, no start is in progress
  have hstart : ∀ w, Startable s.calls w := by
    intro w k hk
    have habsent := (hs.shaped.startable k hk).1
    rw [hw] at habsent
    cases habsent
  have hhead := eventWorker_cases s.globals
  generalize eventWorker s.globals = r at hhead ⊢
  -- the entry at the head of a queue that is not empty
  have hcell : s.globals.queueCount ≠ 0 → ∃ w rest, s.globals.queued = w :: rest ∧
      s.globals.queue s.globals.queueHead = some w ∧
      Ring.Holds (Function.update s.globals.queue s.globals.queueHead none) eventQueueCapacity
        ((s.globals.queueHead + 1) % eventQueueCapacity) (s.globals.queueCount - 1) rest := by
    intro hpos
    have hholds := hq.holds
    cases hqueued : s.globals.queued with
    | nil =>
        rw [hqueued] at hholds
        exact absurd hholds.length.symm hpos
    | cons w rest =>
        rw [hqueued] at hholds
        obtain ⟨hcell, hrest⟩ := hholds.pop hq.head_lt hq.count_le
        exact ⟨w, rest, rfl, hcell, hrest⟩
  cases hhead with
  | waits _ _ =>
      refine Effect.workerMoved hsame ⟨hflag.accepting, fun h => nomatch h⟩ (hstart _) ?_ ?_
      · rw [hw]
      · rw [hw]
  | exits hzero hrun =>
      have hempty : s.globals.queued = [] :=
        List.length_eq_zero_iff.mp (hq.holds.length.trans hzero)
      refine Effect.workerMoved hsame ⟨hflag.accepting, fun _ => ⟨hrun, hempty⟩⟩ (hstart _) ?_ ?_
      · rw [hw]
        rfl
      · rw [hw]
        rfl
  | takes hpos hwork =>
      obtain ⟨w, rest, hqueued, hcell, hrest⟩ := hcell hpos
      obtain rfl := Option.some.inj (hwork.symm.trans hcell)
      obtain ⟨hok, hqueued'⟩ := QueueOk.of_holds (g := { s.globals with
        queue := Function.update s.globals.queue s.globals.queueHead none
        queueHead := (s.globals.queueHead + 1) % eventQueueCapacity
        queueCount := s.globals.queueCount - 1 })
        (Nat.mod_lt _ (by decide)) (le_trans (Nat.sub_le _ _) hq.count_le) hrest
      exact Effect.taken hw hqueued rfl ⟨rfl, rfl, rfl, rfl⟩ hok hqueued'
  | cleared hpos hnone =>
      obtain ⟨w, rest, -, hcell, -⟩ := hcell hpos
      rw [hnone] at hcell
      cases hcell

theorem proceedWorker_effect (hs : s.Sound) (h : proceedWorker s = some s') : Effect s s' := by
  have hq := hs.shaped.queueOk
  have hflag := hs.shaped.flagged
  -- while the worker delivers, no start is in progress
  have hstart : ∀ k d, s.worker = .delivering k d → ∀ w, Startable s.calls w := by
    intro k d hw w k' hk'
    have habsent := (hs.shaped.startable k' hk').1
    rw [hw] at habsent
    cases habsent
  cases proceedWorker_cases h with
  | head hw => exact eventWorker_effect hs hw
  | @delivered k d hw hend =>
      obtain ⟨hphase, hpending⟩ := hend
      refine Effect.workerMoved (SameShared.refl hq) ⟨hflag.accepting, fun h => nomatch h⟩
        (hstart k d hw _) ?_ ?_
      · rw [hw]
        exact hpending.symm
      · rw [hw]
        simp [WorkerLoop.toStart, Delivery.toStart, hpending]
  | @delivering k d g' d' started hw hadv =>
      have hpos : ∀ a ∈ d.pending, 0 < s.globals.heap.inFlight a := fun a ha =>
        hs.counted.inFlight_of_worker (by rw [hw]; exact ha)
      rcases advance_spec hadv hpos with ⟨a, rest, hphase, hpending, rfl, rfl, rfl⟩ |
        ⟨hphase, rfl, rfl, rfl⟩ | ⟨a, rest, heap, hphase, hpending, rfl, hfinished, rfl, rfl⟩
      · exact Effect.workerStarted hw hphase hpending
      · have heff : Effect s ⟨countFailure s.globals,
            .delivering k { d with phase := .finishing }, s.calls, s.stack,
            Function.update s.locals .worker ((s.locals .worker).enterCallback none),
            s.syncLog, s.asyncLog⟩ := by
          refine Effect.workerMoved ⟨rfl, rfl, rfl, rfl, ⟨hq.head_lt, hq.count_le, hq.holds⟩⟩
            ⟨hflag.accepting, fun h => nomatch h⟩ (hstart k d hw _) ?_ ?_
          · rw [hw]
            rfl
          · rw [hw]
            simp [WorkerLoop.toStart, Delivery.toStart, hphase]
        convert heff using 1
        simp [startedObs]
      · have heff : Effect s ⟨{ s.globals with heap := heap },
            .delivering k { d with pending := rest, phase := .ready }, s.calls, s.stack,
            Function.update s.locals .worker ((s.locals .worker).enterCallback none),
            s.syncLog, s.asyncLog⟩ := Effect.workerFinished hw hphase hpending hfinished
        convert heff using 1
        simp [startedObs]

theorem proceed_effect (hs : s.Sound) (h : proceed s t = some s') : Effect s s' := by
  rcases proceed_cases h with ⟨k, rest, -, h⟩ | ⟨-, -, h⟩
  · exact proceedCall_effect hs h
  · exact proceedWorker_effect hs h

omit [DecidableEq Tid] [DecidableEq K] in
/-- A callback that has returned is not started again. -/
theorem Delivery.returned_moved (d : Delivery) (ret : SysErr) :
    (d.returned ret).phase ≠ .ready ∧ (d.returned ret).phase ≠ .running := by
  unfold Delivery.returned
  by_cases hret : ret ≠ .ok
  · rw [if_pos hret]
    exact ⟨(fun h => nomatch h), fun h => nomatch h⟩
  · rw [if_neg hret]
    exact ⟨(fun h => nomatch h), fun h => nomatch h⟩

theorem callbackReturn_effect {ret : SysErr} (hs : s.Sound)
    (h : callbackReturn s t ret = some s') : Effect s s' := by
  cases callbackReturn_cases h with
  | @call _ k rest d firstErr _ hstack hk hphase =>
      obtain ⟨hready, hrunning⟩ := d.returned_moved ret
      refine Effect.calledBack hs (.result ret) (by rw [hk]; rfl) (by rw [hk]; rfl)
        (fun a h => nomatch h) trivial rfl (fun r hr => ?_) (fun r hr => ?_)
      · rw [hk] at hr
        obtain ⟨hne, habi, subscribers, haccepts, hstarts, hresults, herr⟩ := hr
        have hne : d.pending ≠ [] := hne (by rw [hphase]; decide)
        simp only [Delivery.toStart, Delivery.toReturn, hphase, reduceCtorEq, or_true,
          if_false, if_true] at hstarts hresults
        refine ⟨fun _ => hne, habi, subscribers, ?_, ?_, ?_, ?_⟩
        · rw [accepts_append, haccepts]
          rfl
        · rw [starts_append, Delivery.toStart, if_neg hready]
          show (starts r ++ []) ++ _ = _
          rw [List.append_nil]
          exact hstarts
        · -- one result more, and one callback less to return
          rw [results_append, Delivery.toReturn, if_neg (fun h => h.elim hready hrunning)]
          have hpos : 0 < d.pending.length := List.length_pos_iff.mpr hne
          show ((results r) ++ [ret]).length + d.pending.tail.length = _
          rw [List.length_append, List.length_tail, List.length_singleton]
          omega
        · rw [results_append, herr]
          exact (firstError_append _ ret).symm
      · rw [hk] at hr
        exact hr
  | @worker k d _ _ hw hphase =>
      refine Effect.workerMoved (SameShared.refl hs.shaped.queueOk)
        ⟨hs.shaped.flagged.accepting, fun h => nomatch h⟩ (fun k hk => ?_) ?_ ?_
      · have habs := (hs.shaped.startable k hk).1
        rw [hw] at habs
        cases habs
      · rw [hw]
        rfl
      · rw [hw]
        simp only [WorkerLoop.toStart, Delivery.toStart, if_neg (d.returned_moved ret).1, hphase,
          reduceCtorEq, if_false]
        rfl

omit [DecidableEq Tid] in
/-- A section of a start or of a stop that leads to another one; it has nothing to report. -/
theorem Effect.session {st : CallState} {w : WorkerLoop K} {locals : Thread Tid → ThreadLocal}
    (hk : s.calls k = .starting ∨ s.calls k = .stopJoin)
    (hst : st = .storing ∨ st = .stopWait) (hshared : SameShared s.globals g)
    (hflags : Flagged g w) (hstart : Startable (Function.update s.calls k st) w)
    (hrefs : w.refs = s.worker.refs) (hlive : w.toStart = s.worker.toStart)
    (hwait : st = .stopWait → s.worker = .exited) :
    Effect s ⟨g, w, Function.update s.calls k st, s.stack, locals, s.syncLog, s.asyncLog⟩ := by
  have hmoved : Effect s ⟨g, w, Function.update s.calls k st, s.stack, locals,
      s.syncLog ++ [].map fun o => (k, o), s.asyncLog⟩ := by
    refine Effect.moved hshared hflags hstart hrefs hlive ?_ ?_ (fun a h => ?_) hwait rfl
      (fun r hr => ?_) (fun r hr => ?_)
    · rcases hk with hk | hk <;> rcases hst with rfl | rfl <;> rw [hk] <;> rfl
    · rcases hk with hk | hk <;> rcases hst with rfl | rfl <;> rw [hk] <;> rfl
    · rcases hst with rfl | rfl <;> cases h
    · rw [List.append_nil]
      rcases hk with hk | hk <;> rcases hst with rfl | rfl <;> rw [hk] at hr <;> exact hr
    · rcases hk with hk | hk <;> rcases hst with rfl | rfl <;> rw [hk] at hr <;> exact hr
  rw [List.map_nil, List.append_nil] at hmoved
  exact hmoved

theorem threadCreate_effect {ret : SysErr} (hs : s.Sound)
    (h : threadCreate s t ret = some s') : Effect s s' := by
  have hq := hs.shaped.queueOk
  cases threadCreate_cases h with
  | @failed k rest hstack hk hret =>
      refine Effect.quiet hs (SameShared.withFlags hq _ _ _ _) ⟨(fun h => nomatch h), fun hw => ?_⟩
        trivial (by rw [hk]; rfl) (by rw [hk]; rfl) (fun a h => nomatch h) (fun r hr => ?_)
        (fun r hr => ?_)
      · rw [(hs.shaped.startable k hk).1] at hw
        cases hw
      · rw [hk] at hr
        exact hr
      · rw [hk] at hr
        exact hr
  | @created k rest hstack hk hret =>
      obtain ⟨habsent, huniq⟩ := hs.shaped.startable k hk
      refine Effect.session (Or.inl hk) (Or.inl rfl) (SameShared.withFlags hq _ _ _ _)
        ⟨hs.shaped.flagged.accepting, fun h => nomatch h⟩ (fun k' hk' => ?_) ?_ ?_
        (fun h => nomatch h)
      · -- the start was the only one
        by_cases hkk : k' = k
        · rw [hkk, Function.update_self] at hk'
          cases hk'
        · rw [Function.update_of_ne hkk] at hk'
          exact absurd (huniq k' hk') hkk
      · rw [habsent]
        rfl
      · rw [habsent]
        rfl

theorem join_effect {ret : Int} (hs : s.Sound) (h : join s t ret = some s') : Effect s s' := by
  have hq := hs.shaped.queueOk
  have hleave : ∀ k err, s.calls k = .stopJoin → Effect s (s.leave t k .stop err) := by
    intro k err hk
    refine Effect.quiet hs (SameShared.refl hq) hs.shaped.flagged trivial (by rw [hk]; rfl)
      (by rw [hk]; rfl) (fun a h => nomatch h) (fun r hr => ?_) (fun r hr => ?_)
    · rw [hk] at hr
      exact hr
    · rw [hk] at hr
      exact hr
  cases join_cases h with
  | noThread _ hk _ => exact hleave _ _ hk
  | itself _ hk _ _ => exact hleave _ _ hk
  | failed _ hk _ _ _ => exact hleave _ _ hk
  | @joined k rest _ hk _ _ _ hw =>
      refine Effect.session (Or.inr hk) (Or.inr rfl) (SameShared.withFlags hq _ _ _ _)
        ⟨hs.shaped.flagged.accepting, fun h => nomatch h⟩ (fun k' hk' => ?_) ?_ ?_ (fun _ => hw)
      · -- there was a worker, so no start is in progress
        by_cases hkk : k' = k
        · rw [hkk, Function.update_self] at hk'
          cases hk'
        · rw [Function.update_of_ne hkk] at hk'
          have habs := (hs.shaped.startable k' hk').1
          rw [hw] at habs
          cases habs
      · rw [hw]
        rfl
      · rw [hw]
        rfl

/-- Every step of a session has one of the effects. -/
theorem next_effect {e : Action Tid K} (hs : s.Sound) (hidle : StartsIdle s e)
    (h : next s e = some s') : Effect s s' := by
  cases e with
  | call t k call =>
      simp only [next] at h
      by_cases hcan : s.inUserCode t = true ∧ s.calls k = .notStarted
      · rw [if_pos hcan] at h
        exact begin_effect hs hcan.2 hidle h
      · rw [if_neg hcan] at h
        cases h
  | proceed t => exact proceed_effect hs h
  | callbackReturn t ret => exact callbackReturn_effect hs h
  | threadCreate t ret => exact threadCreate_effect hs h
  | join t ret => exact join_effect hs h

end Sections

end Event
end AppCore
