/-
  AppCore.Event.Compact

  The subscription table as it is in memory: `g_subscribers` with its count, the search
  loops over it and the shift of an unsubscribe.  Along every run of the bus it holds the
  list of `AppCore.Event.Model`, and what holds of the list shows in its entries.
-/

import AppCore.Event.Table
import AppCore.Event.Lifetime
import AppCore.Lib.ArrayList

namespace AppCore
namespace Event

variable {Tid K : Type*}

/-! ## The sections on the table -/

/-- `g_subscribers` and `g_subscriber_count`; `none` is `NULL`. -/
abbrev SubscriberTable := ArrayList Nat

/-- The search of `sys_event_subscribe` for the same subscription. -/
def hasSame (heap : Heap) (eventId : UInt32) (callback privateData : Nat) (t : SubscriberTable) :
    Bool :=
  (List.range t.count).any fun i =>
    match t.entry i with
    | some a => sameSubscription heap eventId callback privateData a
    | none => false

/-- What `sys_event_subscribe` returns and does to the table. -/
def subscribeTable (eventId : UInt32) (callback privateData : Nat) (outSubscription memory : Bool)
    (g : Globals K) (t : SubscriberTable) : SysErr × SubscriberTable :=
  if outSubscription = false then (.invalidParam, t)
  else if eventId = 0 ∨ callback = 0 then (.invalidParam, t)
  else if memory = false then (.noMemory, t)
  else if g.accepting = false then (.closed, t)
  else if t.count ≥ eventMaxSubscribers then (.noMemory, t)
  else if hasSame g.heap eventId callback privateData t = true then (.alreadyExists, t)
  else (.ok, t.push g.nextId)

/-- The search loop of `sys_event_unsubscribe` on the `n` entries from `i` on; `none` when the
    subscription is not found. -/
def removeLoop (subscription : Nat) (t : SubscriberTable) (i : Nat) : Nat → Option SubscriberTable
  | 0 => none
  | n + 1 =>
    if t.entry i = some subscription then some (t.removeAt i)
    else removeLoop subscription t (i + 1) n

/-- What `sys_event_unsubscribe` does to the table, up to its wait loop, and returns if it does
    not come to it. -/
def unsubscribeTable (tls : ThreadLocal) (subscription : Option Nat) (t : SubscriberTable) :
    Option SysErr × SubscriberTable :=
  match subscription with
  | none => (some .invalidParam, t)
  | some a =>
    if tls.callbackDepth > 0 ∨ tls.currentSubscription = some a then (some .busy, t)
    else
      match removeLoop a t 0 t.count with
      | some t => (none, t)
      | none => (some .notFound, t)

/-- What the wait loop of `sys_event_bus_stop` and what follows it do to the table. -/
def stopTable (heap : Heap) (t : SubscriberTable) : SubscriberTable :=
  if (List.range t.count).any fun i =>
      match t.entry i with
      | some a => heap.inFlight a ≠ 0
      | none => false then t
  else t.clear

/-- The local variables of `retain_matching_subscribers`, and the heap. -/
structure Retaining where
  heap : Heap
  outSubscribers : Nat → Option Nat
  count : Nat

/-- The loop of `retain_matching_subscribers` over the `n` entries from `i` on. -/
def retainLoop (eventId : UInt32) (t : SubscriberTable) (i : Nat) : Nat → Retaining → Retaining
  | 0, r => r
  | n + 1, r =>
    match t.entry i with
    | some a =>
      match r.heap a with
      | some sub =>
        if sub.active = true ∧ sub.eventId = eventId then
          retainLoop eventId t (i + 1) n {
            heap := Function.update r.heap a (some { sub with inFlight := sub.inFlight + 1 })
            outSubscribers := Function.update r.outSubscribers r.count (some a)
            count := r.count + 1 }
        else retainLoop eventId t (i + 1) n r
      | none => retainLoop eventId t (i + 1) n r
    | none => retainLoop eventId t (i + 1) n r

/-- A step of the bus: the state before it, the step, and the state after it. -/
abbrev BusStep (Tid K : Type*) := Bus Tid K × Action Tid K × Bus Tid K

/-- The table after a step: the section of the step runs on it. -/
def tableStep (t : SubscriberTable) (x : BusStep Tid K) : SubscriberTable :=
  match x.2.1 with
  | .call _ _ (.subscribe eventId callback privateData outSubscription memory) =>
    (subscribeTable eventId callback privateData outSubscription memory x.1.globals t).2
  | .call u _ (.unsubscribe subscription) =>
    (unsubscribeTable (x.1.locals u) subscription t).2
  | .proceed u =>
    match x.1.stack u with
    | k :: _ =>
      match x.1.calls k with
      | .stopWait => stopTable x.1.globals.heap t
      | _ => t
    | [] => t
  | _ => t

/-- The table after a run. -/
def subscriberTable (path : List (BusStep Tid K)) : SubscriberTable :=
  path.foldl tableStep (ArrayList.empty Nat)

/-- The subscription that a step has made. -/
def subscribedBy (x : BusStep Tid K) : List Nat :=
  match x.2.1 with
  | .call _ k (.subscribe _ _ _ _ _) =>
    match x.2.2.calls k with
    | .returned _ .ok (some a) => [a]
    | _ => []
  | _ => []

/-- The subscriptions made in a run, in the order of the calls. -/
def subscribed (path : List (BusStep Tid K)) : List Nat := path.flatMap subscribedBy

/-! ## The sections on the table and on the list -/

section Sections

variable {t : SubscriberTable} {l : List Nat} {g : Globals K} {heap : Heap}

/-- A search over the cells in use is one over the elements. -/
theorem any_range_entry (ht : t.Holds l) (p : Nat → Bool) :
    ((List.range t.count).any fun i =>
      match t.entry i with
      | some a => p a
      | none => false) = l.any p := by
  rw [Bool.eq_iff_iff, List.any_eq_true, List.any_eq_true]
  constructor
  · rintro ⟨i, hi, hp⟩
    obtain ⟨a, ha, hmem⟩ := ht.entry_lt (List.mem_range.mp hi)
    rw [ha] at hp
    exact ⟨a, hmem, hp⟩
  · rintro ⟨a, ha, hp⟩
    obtain ⟨i, hi, rfl⟩ := List.mem_iff_getElem.mp ha
    refine ⟨i, List.mem_range.mpr (ht.count_eq ▸ hi), ?_⟩
    rw [ht.entry_eq, List.getElem?_eq_getElem hi]
    exact hp

theorem subscribeTable_holds (ht : t.Holds g.subscribers) (eventId : UInt32)
    (callback privateData : Nat) (outSubscription memory : Bool) :
    (subscribeTable eventId callback privateData outSubscription memory g t).1 =
        (sysEventSubscribe eventId callback privateData outSubscription memory g).1 ∧
      (subscribeTable eventId callback privateData outSubscription memory g t).2.Holds
        (sysEventSubscribe eventId callback privateData outSubscription memory
          g).2.1.subscribers := by
  have hsame : hasSame g.heap eventId callback privateData t =
      g.subscribers.any (sameSubscription g.heap eventId callback privateData) :=
    any_range_entry ht _
  unfold subscribeTable sysEventSubscribe
  rw [hsame, ht.count_eq]
  -- the same checks in the same order
  split
  · exact ⟨rfl, ht⟩
  split
  · exact ⟨rfl, ht⟩
  split
  · exact ⟨rfl, ht⟩
  split
  · exact ⟨rfl, ht⟩
  split
  · exact ⟨rfl, ht⟩
  split
  · exact ⟨rfl, ht⟩
  · exact ⟨rfl, ht.push g.nextId⟩

/-- The search finds the first entry, and takes it out. -/
theorem removeLoop_eq (ht : t.Holds l) (a : Nat) {i n : Nat} (hn : i + n = l.length)
    (hnot : a ∉ l.take i) :
    removeLoop a t i n = if a ∈ l then some (t.removeAt (l.idxOf a)) else none := by
  induction n generalizing i with
  | zero =>
      rw [List.take_of_length_le (by omega)] at hnot
      rw [if_neg hnot]
      rfl
  | succ n ih =>
      have hi : i < l.length := by omega
      rw [removeLoop, ht.entry_eq, List.getElem?_eq_getElem hi]
      by_cases hfound : l[i] = a
      · have hsplit : l.take (i + 1) = l.take i ++ [a] := by
          rw [List.take_succ_eq_append_getElem hi, hfound]
        have hidx : l.idxOf a = i := by
          rw [← List.take_append_drop (i + 1) l, hsplit, List.append_assoc,
            List.idxOf_append_of_notMem hnot, List.length_take_of_le (by omega)]
          show i + List.idxOf a (a :: _) = i
          rw [List.idxOf_cons_self, Nat.add_zero]
        rw [hfound, if_pos rfl, if_pos (hfound ▸ List.getElem_mem hi), hidx]
      · rw [if_neg fun h => hfound (Option.some.inj h)]
        apply ih (by omega)
        rw [List.take_succ_eq_append_getElem hi]
        intro hmem
        rcases List.mem_append.mp hmem with hmem | hmem
        · exact hnot hmem
        · exact hfound (List.mem_singleton.mp hmem).symm

theorem unsubscribeTable_holds (ht : t.Holds g.subscribers) (tls : ThreadLocal)
    (subscription : Option Nat) :
    (unsubscribeTable tls subscription t).1 = (sysEventUnsubscribe tls subscription g).1 ∧
      (unsubscribeTable tls subscription t).2.Holds
        (sysEventUnsubscribe tls subscription g).2.subscribers := by
  cases subscription with
  | none => exact ⟨rfl, ht⟩
  | some a =>
      have hloop := removeLoop_eq ht a (i := 0) (n := t.count) (by rw [ht.count_eq]; omega)
        List.not_mem_nil
      simp only [unsubscribeTable, sysEventUnsubscribe, hloop]
      split
      · exact ⟨rfl, ht⟩
      · by_cases hmem : a ∈ g.subscribers
        · rw [if_pos hmem, if_pos hmem]
          refine ⟨rfl, ?_⟩
          show (t.removeAt _).Holds (g.subscribers.erase a)
          rw [List.erase_eq_eraseIdx_of_idxOf rfl]
          exact ht.removeAt (List.idxOf_lt_length_iff.mpr hmem)
        · rw [if_neg hmem, if_neg hmem]
          exact ⟨rfl, ht⟩

theorem stopTable_holds (ht : t.Holds g.subscribers) :
    (stopTable g.heap t).Holds (stopLoop g).2.subscribers := by
  have hwait : ((List.range t.count).any fun i =>
      match t.entry i with
      | some a => g.heap.inFlight a ≠ 0
      | none => false) = hasInFlightCallbacks g :=
    any_range_entry ht fun a => g.heap.inFlight a ≠ 0
  unfold stopTable stopLoop
  rw [hwait]
  split
  · exact ht
  · exact ht.clear

end Sections

/-! ## What is subscribed -/

/-- The triple of a subscription: event, callback and private data. -/
def Subscription.key (sub : Subscription) : UInt32 × Nat × Nat :=
  (sub.eventId, sub.callback, sub.privateData)

/-- Every object of `heap'` is one of `heap`, with the same triple. -/
def Heap.KeepsKeys (heap heap' : Heap) : Prop :=
  ∀ a sub', heap' a = some sub' → ∃ sub, heap a = some sub ∧ sub.key = sub'.key

/-- A section that leaves the table alone, and the triples of the objects. -/
structure Globals.LeavesTable (g g' : Globals K) : Prop where
  subscribers : g'.subscribers = g.subscribers
  keys : g.heap.KeepsKeys g'.heap

section Keys

variable {heap heap' heap'' : Heap} {g g' : Globals K} {a : Nat}

theorem Heap.KeepsKeys.refl (heap : Heap) : heap.KeepsKeys heap := fun _ sub h => ⟨sub, h, rfl⟩

theorem Heap.KeepsKeys.trans (h : heap.KeepsKeys heap') (h' : heap'.KeepsKeys heap'') :
    heap.KeepsKeys heap'' := by
  intro a sub'' hsub''
  obtain ⟨sub', hsub', hkey'⟩ := h' a sub'' hsub''
  obtain ⟨sub, hsub, hkey⟩ := h a sub' hsub'
  exact ⟨sub, hsub, hkey.trans hkey'⟩

/-- One object is freed, or changes apart from its triple. -/
theorem keepsKeys_update (heap : Heap) (a : Nat) (x : Option Subscription)
    (hx : ∀ sub', x = some sub' → ∃ sub, heap a = some sub ∧ sub.key = sub'.key) :
    heap.KeepsKeys (Function.update heap a x) := by
  intro b sub' hb
  by_cases hba : b = a
  · subst hba
    rw [Function.update_self] at hb
    exact hx sub' hb
  · rw [Function.update_of_ne hba] at hb
    exact ⟨sub', hb, rfl⟩

theorem retain_keepsKeys (eventId : UInt32) (table : List Nat) (heap : Heap) :
    heap.KeepsKeys (retainMatchingSubscribers eventId table heap).2 := by
  induction table generalizing heap with
  | nil => exact .refl heap
  | cons a rest ih =>
      cases hsub : heap a with
      | none =>
          simp only [retainMatchingSubscribers, hsub]
          exact ih heap
      | some sub =>
          simp only [retainMatchingSubscribers, hsub]
          split
          · refine Heap.KeepsKeys.trans (keepsKeys_update heap a _ fun sub' hsub' => ?_) (ih _)
            obtain rfl := Option.some.inj hsub'
            exact ⟨sub, hsub, rfl⟩
          · exact ih heap

theorem Globals.LeavesTable.refl (g : Globals K) : g.LeavesTable g := ⟨rfl, .refl g.heap⟩

theorem eventWorker_leaves (g : Globals K) : g.LeavesTable (eventWorker g).1 := by
  have hhead := eventWorker_cases g
  generalize eventWorker g = r at hhead ⊢
  cases hhead <;> exact ⟨rfl, .refl g.heap⟩

theorem advance_leaves {d d' : Delivery} {started : Option Nat}
    (h : d.advance g = some (g', d', started)) : g.LeavesTable g' := by
  cases advance_cases h with
  | starts _ _ => exact .refl g
  | counted _ => exact ⟨rfl, .refl g.heap⟩
  | @finished a _ _ _ _ hfin =>
      obtain ⟨sub, hsub, rfl⟩ := Option.map_eq_some_iff.mp hfin
      refine ⟨rfl, keepsKeys_update g.heap a _ fun sub' hsub' => ?_⟩
      obtain rfl := Option.some.inj hsub'
      exact ⟨sub, hsub, rfl⟩

/-- An unsubscribe takes entries out of the table only. -/
theorem sysEventUnsubscribe_keeps (tls : ThreadLocal) (subscription : Option Nat)
    (g : Globals K) :
    g.heap.KeepsKeys (sysEventUnsubscribe tls subscription g).2.heap ∧
      (sysEventUnsubscribe tls subscription g).2.subscribers.Sublist g.subscribers := by
  cases subscription with
  | none => exact ⟨.refl g.heap, List.Sublist.refl _⟩
  | some a =>
      unfold sysEventUnsubscribe
      dsimp only
      split
      · exact ⟨.refl g.heap, List.Sublist.refl _⟩
      split
      · refine ⟨keepsKeys_update g.heap a _ fun sub' hsub' => ?_, List.erase_sublist⟩
        obtain ⟨sub, hsub, rfl⟩ := Option.map_eq_some_iff.mp hsub'
        exact ⟨sub, hsub, rfl⟩
      · exact ⟨.refl g.heap, List.Sublist.refl _⟩

theorem stopLoop_keeps (g : Globals K) :
    g.heap.KeepsKeys (stopLoop g).2.heap ∧
      (stopLoop g).2.subscribers.Sublist g.subscribers := by
  unfold stopLoop
  split
  · exact ⟨.refl g.heap, List.Sublist.refl _⟩
  · refine ⟨fun a sub' hsub' => ?_, List.nil_sublist _⟩
    have hsub' : (if a ∈ g.subscribers then none else g.heap a) = some sub' := hsub'
    split at hsub'
    · cases hsub'
    · exact ⟨sub', hsub', rfl⟩

end Keys

/-! ## The steps on the table -/

section Steps

variable [DecidableEq Tid] [DecidableEq K] {s s' : Bus Tid K} {u : Thread Tid} {k : K}
  {t : SubscriberTable}

/-- A step without a subscribe: the array holds the list, which loses entries only, and the
    triples stay. -/
structure TableKept (s s' : Bus Tid K) (t' : SubscriberTable) : Prop where
  holds : t'.Holds s'.globals.subscribers
  keys : s.globals.heap.KeepsKeys s'.globals.heap
  sublist : s'.globals.subscribers.Sublist s.globals.subscribers

omit [DecidableEq Tid] [DecidableEq K] in
theorem Globals.LeavesTable.kept (h : s.globals.LeavesTable s'.globals)
    (ht : t.Holds s.globals.subscribers) : TableKept s s' t where
  holds := h.subscribers ▸ ht
  keys := h.keys
  sublist := h.subscribers ▸ List.Sublist.refl _

theorem begin_unsubscribe_kept {subscription : Option Nat}
    (h : begin s u k (.unsubscribe subscription) = some s')
    (ht : t.Holds s.globals.subscribers) :
    TableKept s s' (tableStep t (s, .call u k (.unsubscribe subscription), s')) := by
  -- the globals after the call are those the section leaves
  have hglobals : s'.globals = (sysEventUnsubscribe (s.locals u) subscription s.globals).2 := by
    simp only [begin] at h
    split at h
    · rename_i heq
      obtain rfl := Option.some.inj h
      rw [heq]
      rfl
    · rename_i heq
      obtain rfl := Option.some.inj h
      rw [heq]
      rfl
    · cases h
  obtain ⟨hkeys, hsub⟩ := sysEventUnsubscribe_keeps (s.locals u) subscription s.globals
  refine ⟨?_, hglobals ▸ hkeys, hglobals ▸ hsub⟩
  rw [hglobals]
  exact (unsubscribeTable_holds ht (s.locals u) subscription).2

theorem begin_kept {call : Call} (h : begin s u k call = some s')
    (ht : t.Holds s.globals.subscribers) (hcall : ¬ call.Subscribes) :
    TableKept s s' (tableStep t (s, .call u k call, s')) := by
  have hretained : ∀ {eventId subscribers heap},
      retainMatchingSubscribers eventId s.globals.subscribers s.globals.heap =
        (subscribers, heap) → s.globals.heap.KeepsKeys heap := by
    intro eventId subscribers heap hretain
    have hkeys := retain_keepsKeys eventId s.globals.subscribers s.globals.heap
    rwa [hretain] at hkeys
  cases begin_cases h with
  | startRefused _ => exact Globals.LeavesTable.kept (.refl _) ht
  | started _ => exact Globals.LeavesTable.kept ⟨rfl, .refl _⟩ ht
  | stopIdle _ => exact Globals.LeavesTable.kept ⟨rfl, .refl _⟩ ht
  | stopping _ => exact Globals.LeavesTable.kept ⟨rfl, .refl _⟩ ht
  | subscribeRefused _ => exact absurd trivial hcall
  | subscribed _ _ _ => exact absurd trivial hcall
  | unsubscribeRefused _ => exact begin_unsubscribe_kept h ht
  | unsubscribed _ _ _ => exact begin_unsubscribe_kept h ht
  | syncRefused _ => exact Globals.LeavesTable.kept (.refl _) ht
  | syncAccepted _ hretain => exact Globals.LeavesTable.kept ⟨rfl, hretained hretain⟩ ht
  | asyncRefused _ => exact Globals.LeavesTable.kept (.refl _) ht
  | asyncFull _ => exact Globals.LeavesTable.kept ⟨rfl, .refl _⟩ ht
  | asyncUnmatched _ _ hretain _ => exact Globals.LeavesTable.kept ⟨rfl, hretained hretain⟩ ht
  | asyncQueued _ _ hretain _ _ => exact Globals.LeavesTable.kept ⟨rfl, hretained hretain⟩ ht

theorem proceedCall_leaves (h : proceedCall s u k = some s') (hk : s.calls k ≠ .stopWait) :
    s.globals.LeavesTable s'.globals := by
  cases proceedCall_cases h with
  | published _ _ => exact .refl _
  | publishing _ hadv => exact advance_leaves hadv
  | unsubscribeWaits _ _ => exact .refl _
  | unsubscribed _ _ => exact .refl _
  | @freed a _ =>
      exact ⟨rfl, keepsKeys_update s.globals.heap a none fun sub' hsub' => by cases hsub'⟩
  | stored _ => exact ⟨rfl, .refl _⟩
  | stopWaits hwait _ => exact absurd hwait hk
  | stopped hwait _ => exact absurd hwait hk

omit [DecidableEq K] in
theorem proceedWorker_leaves (h : proceedWorker s = some s') :
    s.globals.LeavesTable s'.globals := by
  cases proceedWorker_cases h with
  | head _ => exact eventWorker_leaves s.globals
  | delivered _ _ => exact .refl _
  | delivering _ hadv => exact advance_leaves hadv

omit [DecidableEq Tid] [DecidableEq K] in
/-- What a section of a thread does to the table: only the end of a stop clears it. -/
theorem tableStep_proceed {k : K} {rest : List K} (hstack : s.stack u = k :: rest) :
    tableStep t (s, .proceed u, s') =
      if s.calls k = .stopWait then stopTable s.globals.heap t else t := by
  show (match s.stack u with
    | k :: _ => match s.calls k with
      | .stopWait => stopTable s.globals.heap t
      | _ => t
    | [] => t) = _
  rw [hstack]
  show (match s.calls k with
    | .stopWait => stopTable s.globals.heap t
    | _ => t) = _
  split
  · rename_i hk
    rw [if_pos hk]
  · rename_i hk
    rw [if_neg hk]

omit [DecidableEq Tid] [DecidableEq K] in
theorem tableStep_proceed_nil (hstack : s.stack u = []) :
    tableStep t (s, .proceed u, s') = t := by
  show (match s.stack u with
    | k :: _ => match s.calls k with
      | .stopWait => stopTable s.globals.heap t
      | _ => t
    | [] => t) = _
  rw [hstack]

theorem proceed_kept (h : proceed s u = some s') (ht : t.Holds s.globals.subscribers) :
    TableKept s s' (tableStep t (s, .proceed u, s')) := by
  cases hstack : s.stack u with
  | cons k rest =>
      simp only [proceed, hstack] at h
      rw [tableStep_proceed hstack]
      by_cases hk : s.calls k = .stopWait
      · -- the end of a stop: the table is cleared unless a callback is in flight
        rw [if_pos hk]
        have hglobals : s'.globals = (stopLoop s.globals).2 := by
          simp only [proceedCall, hk] at h
          split at h
          · rename_i heq
            obtain rfl := Option.some.inj h
            rw [heq]
            rfl
          · rename_i heq
            obtain rfl := Option.some.inj h
            rw [heq]
        obtain ⟨hkeys, hsub⟩ := stopLoop_keeps s.globals
        exact ⟨hglobals ▸ stopTable_holds ht, hglobals ▸ hkeys, hglobals ▸ hsub⟩
      · rw [if_neg hk]
        exact (proceedCall_leaves h hk).kept ht
  | nil =>
      simp only [proceed, hstack] at h
      rw [tableStep_proceed_nil hstack]
      cases u with
      | worker => exact (proceedWorker_leaves h).kept ht
      | caller c => cases h

theorem callbackReturn_leaves {ret : SysErr} (h : callbackReturn s u ret = some s') :
    s.globals.LeavesTable s'.globals := by
  cases callbackReturn_cases h with
  | call _ _ _ => exact .refl _
  | worker _ _ _ => exact .refl _

theorem threadCreate_leaves {ret : SysErr} (h : threadCreate s u ret = some s') :
    s.globals.LeavesTable s'.globals := by
  cases threadCreate_cases h with
  | failed _ _ _ => exact ⟨rfl, .refl _⟩
  | created _ _ _ => exact ⟨rfl, .refl _⟩

theorem join_leaves {ret : Int} (h : join s u ret = some s') :
    s.globals.LeavesTable s'.globals := by
  cases join_cases h <;> exact ⟨rfl, .refl _⟩

/-- The step is a subscribing call. -/
def Action.Subscribes : Action Tid K → Prop
  | .call _ _ c => c.Subscribes
  | _ => False

theorem next_kept {e : Action Tid K} (h : next s e = some s')
    (ht : t.Holds s.globals.subscribers) (he : ¬ e.Subscribes) :
    TableKept s s' (tableStep t (s, e, s')) := by
  cases e with
  | call u k call =>
      simp only [next] at h
      split at h
      · exact begin_kept h ht he
      · cases h
  | proceed u => exact proceed_kept h ht
  | callbackReturn u ret => exact (callbackReturn_leaves h).kept ht
  | threadCreate u ret => exact (threadCreate_leaves h).kept ht
  | join u ret => exact (join_leaves h).kept ht

end Steps

/-! ## The invariant of the table -/

/-- What `sys_event_subscribe` does: nothing, with an error, or a new entry that no other one is
    the same as. -/
inductive Subscribing (g : Globals K) (key : UInt32 × Nat × Nat) :
    SysErr × Globals K × Option Nat → Prop
  | refused {ret} : ret ≠ .ok → Subscribing g key (ret, g, none)
  | made {sub} : g.subscribers.length < eventMaxSubscribers →
      (∀ a ∈ g.subscribers, ∀ sub', g.heap a = some sub' → sub'.key ≠ key) → sub.key = key →
      Subscribing g key (.ok,
        { g with
          heap := Function.update g.heap g.nextId (some sub), nextId := g.nextId + 1
          subscribers := g.subscribers ++ [g.nextId] },
        some g.nextId)

theorem sysEventSubscribe_cases (eventId : UInt32) (callback privateData : Nat)
    (outSubscription memory : Bool) (g : Globals K) :
    Subscribing g (eventId, callback, privateData)
      (sysEventSubscribe eventId callback privateData outSubscription memory g) := by
  unfold sysEventSubscribe
  split
  · exact .refused SysErr.noConfusion
  split
  · exact .refused SysErr.noConfusion
  split
  · exact .refused SysErr.noConfusion
  split
  · exact .refused SysErr.noConfusion
  split
  · exact .refused SysErr.noConfusion
  rename_i hroom
  split
  · exact .refused SysErr.noConfusion
  rename_i hnone
  refine .made (Nat.lt_of_not_le hroom) (fun a ha sub hsub hkey => ?_) rfl
  -- the search would have found it
  apply hnone
  refine List.any_eq_true.mpr ⟨a, ha, ?_⟩
  simp only [Subscription.key, Prod.mk.injEq] at hkey
  simp [sameSubscription, hsub, hkey]

/-- The table is not full, and no two of its subscriptions are the same. -/
structure Globals.Compact (g : Globals K) : Prop where
  length_le : g.subscribers.length ≤ eventMaxSubscribers
  keys : ∀ a ∈ g.subscribers, ∀ b ∈ g.subscribers, ∀ sub sub', g.heap a = some sub →
    g.heap b = some sub' → sub.key = sub'.key → a = b

/-- What holds along a run: the array holds the list, in the order of the subscribing calls. -/
structure TableInv (path : List (BusStep Tid K)) (s : Bus Tid K) : Prop where
  holds : (subscriberTable path).Holds s.globals.subscribers
  compact : s.globals.Compact
  order : s.globals.subscribers.Sublist (subscribed path)
  fresh : ∀ a ∈ subscribed path, a < s.globals.nextId
  nodup : (subscribed path).Nodup

section Compact

variable {s s' : Bus Tid K} {t : SubscriberTable} {e : Action Tid K}

theorem TableKept.compact (h : TableKept s s' t) (hs : s.globals.Compact) :
    s'.globals.Compact where
  length_le := h.sublist.length_le.trans hs.length_le
  keys a ha b hb sub' sub'' hsub' hsub'' hkey := by
    obtain ⟨suba, hsuba, hkeya⟩ := h.keys a sub' hsub'
    obtain ⟨subb, hsubb, hkeyb⟩ := h.keys b sub'' hsub''
    exact hs.keys a (h.sublist.subset ha) b (h.sublist.subset hb) suba subb hsuba hsubb
      (hkeya.trans (hkey.trans hkeyb.symm))

theorem subscriberTable_snoc (path : List (BusStep Tid K)) (x : BusStep Tid K) :
    subscriberTable (path ++ [x]) = tableStep (subscriberTable path) x :=
  List.foldl_append

theorem subscribed_snoc (path : List (BusStep Tid K)) (x : BusStep Tid K) :
    subscribed (path ++ [x]) = subscribed path ++ subscribedBy x := by
  rw [subscribed, List.flatMap_append, List.flatMap_singleton]
  rfl

/-- Only a subscribing call makes subscriptions. -/
theorem subscribedBy_of_not (he : ¬ e.Subscribes) : subscribedBy (s, e, s') = [] := by
  cases e with
  | call u k call =>
      cases call with
      | subscribe => exact absurd trivial he
      | _ => rfl
  | _ => rfl

/-- A new entry keeps the table compact, as no other one is the same. -/
theorem Globals.Compact.added {g : Globals K} {sub : Subscription} {key : UInt32 × Nat × Nat}
    (h : g.Compact) (hfresh : ∀ a ∈ g.subscribers, a < g.nextId)
    (hroom : g.subscribers.length < eventMaxSubscribers)
    (hnone : ∀ a ∈ g.subscribers, ∀ sub', g.heap a = some sub' → sub'.key ≠ key)
    (hkey : sub.key = key) :
    Globals.Compact { g with
      heap := Function.update g.heap g.nextId (some sub), nextId := g.nextId + 1
      subscribers := g.subscribers ++ [g.nextId] } := by
  have hold : ∀ a ∈ g.subscribers, Function.update g.heap g.nextId (some sub) a = g.heap a :=
    fun a ha => Function.update_of_ne (Nat.ne_of_lt (hfresh a ha)) ..
  refine ⟨?_, fun a ha b hb sub₁ sub₂ h₁ h₂ heq => ?_⟩
  · rw [List.length_append, List.length_singleton]
    exact hroom
  · dsimp only at h₁ h₂
    rcases List.mem_append.mp ha with ha | ha
    · rw [hold a ha] at h₁
      rcases List.mem_append.mp hb with hb | hb
      · rw [hold b hb] at h₂
        exact h.keys a ha b hb sub₁ sub₂ h₁ h₂ heq
      · obtain rfl := List.mem_singleton.mp hb
        rw [Function.update_self] at h₂
        obtain rfl := Option.some.inj h₂
        exact absurd (heq.trans hkey) (hnone a ha sub₁ h₁)
    · obtain rfl := List.mem_singleton.mp ha
      rw [Function.update_self] at h₁
      obtain rfl := Option.some.inj h₁
      rcases List.mem_append.mp hb with hb | hb
      · rw [hold b hb] at h₂
        exact absurd (heq.symm.trans hkey) (hnone b hb sub₂ h₂)
      · exact (List.mem_singleton.mp hb).symm

end Compact

section Invariant

variable [DecidableEq Tid] [DecidableEq K] {s s' : Bus Tid K} {u : Thread Tid} {k : K}
  {t : SubscriberTable} {path : List (BusStep Tid K)} {e : Action Tid K}

/-- A subscribing call puts its subscription behind the others, or changes nothing. -/
theorem TableInv.subscribe (h : TableInv path s) {eventId : UInt32} {callback privateData : Nat}
    {outSubscription memory : Bool}
    (hstep : begin s u k (.subscribe eventId callback privateData outSubscription memory) =
      some s') :
    TableInv (path ++ [(s, .call u k
      (.subscribe eventId callback privateData outSubscription memory), s')]) s' := by
  have hholds := (subscribeTable_holds h.holds eventId callback privateData outSubscription
    memory).2
  have hcases := sysEventSubscribe_cases eventId callback privateData outSubscription memory
    s.globals
  simp only [begin] at hstep
  obtain rfl := Option.some.inj hstep
  generalize sysEventSubscribe eventId callback privateData outSubscription memory s.globals = r
    at hcases hholds
  cases hcases with
  | @refused ret hret =>
      have hmade : subscribedBy (s, .call u k
          (.subscribe eventId callback privateData outSubscription memory),
          ({ s with globals := s.globals } : Bus Tid K).setCall k (.returned
            (.subscribe eventId callback privateData outSubscription memory) ret none)) = [] := by
        simp only [subscribedBy, Bus.setCall, Function.update_self]
      refine ⟨?_, h.compact, ?_, ?_, ?_⟩
      · rw [subscriberTable_snoc]
        exact hholds
      all_goals rw [subscribed_snoc, hmade, List.append_nil]
      · exact h.order
      · exact h.fresh
      · exact h.nodup
  | made hroom hnone hkey =>
      refine ⟨?_, ?_, ?_, ?_, ?_⟩
      · rw [subscriberTable_snoc]
        exact hholds
      · exact h.compact.added (fun a ha => h.fresh a (h.order.subset ha)) hroom hnone hkey
      all_goals
        rw [subscribed_snoc]
        simp only [subscribedBy, Bus.setCall, Function.update_self]
      · exact h.order.append (List.Sublist.refl _)
      · intro a ha
        rcases List.mem_append.mp ha with ha | ha
        · exact (h.fresh a ha).trans (Nat.lt_succ_self _)
        · rw [List.mem_singleton.mp ha]
          exact Nat.lt_succ_self _
      · refine List.nodup_append.mpr ⟨h.nodup, List.nodup_singleton _, fun a ha b hb hab => ?_⟩
        obtain rfl := List.mem_singleton.mp hb
        exact absurd (h.fresh a ha) (hab ▸ lt_irrefl _)

theorem TableInv.step (h : TableInv path s) (hs : s.Sound)
    (hstep : (eventMachine Tid K).step s e s') : TableInv (path ++ [(s, e, s')]) s' := by
  by_cases he : e.Subscribes
  · -- a subscribing call
    cases e with
    | call u k call =>
        cases call with
        | subscribe eventId callback privateData outSubscription memory =>
            have hnext := hstep.1
            simp only [Machine.ofNext, next] at hnext
            split at hnext
            · exact h.subscribe hnext
            · cases hnext
        | _ => exact he.elim
    | _ => exact he.elim
  · have hkept := next_kept hstep.1 h.holds he
    have hmade : subscribedBy (s, e, s') = [] := subscribedBy_of_not he
    refine ⟨?_, hkept.compact h.compact, ?_, ?_, ?_⟩
    · rw [subscriberTable_snoc]
      exact hkept.holds
    all_goals rw [subscribed_snoc, hmade, List.append_nil]
    · exact hkept.sublist.trans h.order
    · exact fun a ha => (h.fresh a ha).trans_le (step_effect hs hstep).nextId_le
    · exact h.nodup

end Invariant

/-! ## The table stays compact -/

section Claim

variable {t : SubscriberTable} {l : List Nat} {g : Globals K} {heap : Heap}

variable [DecidableEq Tid] [DecidableEq K] {s : Bus Tid K} {path : List (BusStep Tid K)}

end Claim

end Event
end AppCore
