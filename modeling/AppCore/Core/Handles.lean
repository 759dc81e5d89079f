/-
  AppCore.Core.Handles

  The handles of `sys_event_subscribe`.  A handle is the address of its subscription, and
  `sys_event_unsubscribe` looks the address up in the table, so it matters which addresses
  `calloc` hands out again.  `Handles` puts addresses under the framework, whose bus knows
  a subscription by the number of its allocation.
-/

import AppCore.Core.Table

namespace AppCore
namespace Core

open Event (Bus Thread CallState Call Globals TableStep)

/-- The framework with the addresses of its subscriptions.  A handle is known by the number
    of the subscription it was issued for. -/
structure Handles (Tid K : Type*) where
  core : Framework Tid K
  /-- The address that `calloc` returned for an allocation. -/
  addr : Nat → Nat
  /-- The handle an unsubscribing call was made with. -/
  used : K → Option Nat
  /-- The handles on which `sys_event_unsubscribe` has returned `SYS_OK`. -/
  closed : List Nat

/-- The atomic steps. -/
inductive HandleAction (Tid K : Type*) where
  /-- A step of the framework that no address matters for. -/
  | core (a : CoreAction Tid K)
  /-- `sys_event_subscribe`; `memory` is what `calloc` returns, `none` for `NULL`. -/
  | subscribe (t : Thread (Caller Tid)) (k : K) (eventId : UInt32) (callback privateData : Nat)
      (outSubscription : Bool) (memory : Option Nat)
  /-- `sys_event_unsubscribe` with a handle that is not `NULL`. -/
  | unsubscribe (t : Thread (Caller Tid)) (k : K) (handle : Nat)
  /-- Such a call gives its return code to its caller. -/
  | unsubscribeReturned (k : K)
deriving DecidableEq, Repr

section Functions

variable {Tid K : Type*} [DecidableEq Tid] [DecidableEq K]

/-- The framework before the first call. -/
def Handles.zero (Tid K : Type*) : Handles Tid K where
  core := Framework.zero Tid K
  addr := fun _ => 0
  used := fun _ => none
  closed := []

/-- The subscriptions in the table. -/
def Handles.table (s : Handles Tid K) : List Nat := s.core.bus.globals.subscribers

/-- The address belongs to an object that was not freed. -/
def Handles.allocated (s : Handles Tid K) (p : Nat) : Bool :=
  (List.range s.core.bus.globals.nextId).any fun a =>
    (s.core.bus.globals.heap a).isSome && s.addr a = p

/-- The handle was issued, and no unsubscribe has returned `SYS_OK` on it yet. -/
def Handles.Outstanding (s : Handles Tid K) (handle : Nat) : Prop :=
  0 < handle ∧ handle < s.core.bus.globals.nextId ∧ handle ∉ s.closed

instance (s : Handles Tid K) (handle : Nat) : Decidable (s.Outstanding handle) :=
  inferInstanceAs (Decidable (_ ∧ _ ∧ _))

/-- The subscription that `sys_event_unsubscribe` takes the address of a handle for: that of
    the current callback, or the first in the table that is there. -/
def Handles.resolve (s : Handles Tid K) (t : Thread (Caller Tid)) (handle : Nat) : Nat :=
  match (s.core.bus.locals t).currentSubscription.filter (s.addr · = s.addr handle) with
  | some a => a
  | none => (s.table.find? (s.addr · = s.addr handle)).getD handle

/-- The call needs an address. -/
def byAddress : CoreAction Tid K → Bool
  | .bus (.call _ _ (.subscribe _ _ _ _ _)) => true
  | .bus (.call _ _ (.unsubscribe (some _))) => true
  | _ => false

/-- One atomic step. -/
def Handles.next (s : Handles Tid K) : HandleAction Tid K → Option (Handles Tid K)
  | .core a =>
    if byAddress a = true then none
    else (Core.next s.core a).map fun core => { s with core := core }
  | .subscribe t k eventId callback privateData outSubscription memory =>
    if memory.any (fun p => p = 0 || s.allocated p) = true then none
    else
      (Core.next s.core (.bus (.call t k
        (.subscribe eventId callback privateData outSubscription memory.isSome)))).map fun core =>
        { s with
          core := core
          addr := match memory with
            | some p => Function.update s.addr s.core.bus.globals.nextId p
            | none => s.addr }
  | .unsubscribe t k handle =>
    if handle = 0 ∨ s.core.bus.globals.nextId ≤ handle then none
    else
      (Core.next s.core (.bus (.call t k (.unsubscribe (some (s.resolve t handle)))))).map
        fun core => { s with core := core, used := Function.update s.used k (some handle) }
  | .unsubscribeReturned k =>
    match s.used k, s.core.bus.calls k with
    | some handle, .returned _ .ok _ => some { s with closed := handle :: s.closed }
    | _, _ => none

/-- The framework under all interleavings and all choices of `calloc`. -/
def handleMachine (Tid K : Type*) [DecidableEq Tid] [DecidableEq K] :
    Machine (Handles Tid K) (HandleAction Tid K) :=
  Machine.ofNext (fun s => s = Handles.zero Tid K) Handles.next

/-- A subscription that is stored does not get the address of an outstanding handle. -/
def NotReused (s : Handles Tid K) : HandleAction Tid K → Prop
  | .subscribe _ _ eventId callback privateData outSubscription (some p) =>
    (Event.sysEventSubscribe eventId callback privateData outSubscription true
      s.core.bus.globals).1 = .ok →
    ∀ handle, s.Outstanding handle → s.addr handle ≠ p
  | _ => True

instance (s : Handles Tid K) (a : HandleAction Tid K) : Decidable (NotReused s a) :=
  match a with
  | .subscribe _ _ eventId callback privateData outSubscription (some p) =>
    decidable_of_iff ((Event.sysEventSubscribe eventId callback privateData outSubscription true
        s.core.bus.globals).1 = .ok →
      ∀ handle < s.core.bus.globals.nextId, s.Outstanding handle → s.addr handle ≠ p)
      ⟨fun h hok handle hout => h hok handle hout.2.1 hout,
        fun h hok handle _ hout => h hok handle hout⟩
  | .subscribe _ _ _ _ _ _ none => isTrue trivial
  | .core _ => isTrue trivial
  | .unsubscribe _ _ _ => isTrue trivial
  | .unsubscribeReturned _ => isTrue trivial

end Functions

/-! ## Handles and addresses -/

section Addresses

variable {Tid K : Type*} [DecidableEq Tid] [DecidableEq K] {s s' : Handles Tid K}

/-- No subscription in the table is at the address of somebody else's outstanding handle. -/
structure Handles.Distinct (s : Handles Tid K) : Prop where
  tabled : s.core.bus.Tabled
  own : ∀ handle, s.Outstanding handle → ∀ a ∈ s.table, s.addr a = s.addr handle → a = handle

omit [DecidableEq Tid] [DecidableEq K] in
theorem lt_nextId_of_mem (hs : s.core.bus.Tabled) {a : Nat} (ha : a ∈ s.table) :
    a < s.core.bus.globals.nextId :=
  hs.fresh a (hs.live a ha)

omit [DecidableEq Tid] [DecidableEq K] in
theorem allocated_of_mem (hs : s.core.bus.Tabled) {a : Nat} (ha : a ∈ s.table) :
    s.allocated (s.addr a) = true := by
  rw [Handles.allocated, List.any_eq_true]
  exact ⟨a, List.mem_range.mpr (lt_nextId_of_mem hs ha), by simp [hs.live a ha]⟩

omit [DecidableEq Tid] [DecidableEq K] in
/-- A step that adds nothing to the table and changes no address. -/
theorem Handles.Distinct.shrinks (hs : s.Distinct) (htabled : s'.core.bus.Tabled)
    (htable : ∀ a ∈ s'.table, a ∈ s.table)
    (haddr : ∀ a < s.core.bus.globals.nextId, s'.addr a = s.addr a)
    (hnext : s'.core.bus.globals.nextId = s.core.bus.globals.nextId)
    (hclosed : ∀ handle ∈ s.closed, handle ∈ s'.closed) : s'.Distinct := by
  refine ⟨htabled, fun handle hout a ha heq => ?_⟩
  obtain ⟨hpos, hlt, hopen⟩ := hout
  rw [hnext] at hlt
  rw [haddr handle hlt, haddr a (lt_nextId_of_mem hs.tabled (htable a ha))] at heq
  exact hs.own handle ⟨hpos, hlt, fun h => hopen (hclosed handle h)⟩ a (htable a ha) heq

omit [DecidableEq K] in
/-- What a step that is no subscribing call does to the table. -/
theorem shrinks_of_tableStep {adds : Prop} {g g' : Globals K} {calls calls' : K → CallState}
    (h : TableStep adds g calls g' calls') (hadds : ¬ adds) :
    (∀ a ∈ g'.subscribers, a ∈ g.subscribers) ∧ g'.nextId = g.nextId := by
  cases h with
  | kept hkeeps _ => exact ⟨fun a ha => hkeeps.subscribers ▸ ha, hkeeps.nextId⟩
  | added h _ _ _ _ _ => exact absurd h hadds
  | removed a _ hsubs hnext _ _ =>
      exact ⟨fun b hb => List.mem_of_mem_erase (hsubs ▸ hb), hnext⟩
  | freed _ _ _ hsubs hnext _ _ => exact ⟨fun b hb => hsubs ▸ hb, hnext⟩
  | emptied hsubs hnext _ _ =>
      refine ⟨fun b hb => ?_, hnext⟩
      rw [hsubs] at hb
      exact (List.not_mem_nil hb).elim

/-- The call of the application that a step of the framework begins. -/
theorem begin_of_call {c c' : Framework Tid K} {t : Thread (Caller Tid)} {k : K} {call : Call}
    (h : next c (.bus (.call t k call)) = some c') :
    ∃ b, Event.begin c.bus t k call = some b ∧ c' = { c with bus := b } := by
  simp only [next, busStep] at h
  split at h
  · obtain ⟨b, hb, rfl⟩ := Option.map_eq_some_iff.mp h
    simp only [Event.next] at hb
    split at hb
    · exact ⟨b, hb, rfl⟩
    · cases hb
  · cases h

omit [DecidableEq Tid] [DecidableEq K] in
/-- A step that stores one subscription, where no object is and no outstanding handle
    points. -/
theorem Handles.Distinct.grows (hs : s.Distinct) (htabled : s'.core.bus.Tabled) {p : Nat}
    (htable : s'.table = s.table ++ [s.core.bus.globals.nextId])
    (haddr : s'.addr = Function.update s.addr s.core.bus.globals.nextId p)
    (hnext : s'.core.bus.globals.nextId = s.core.bus.globals.nextId + 1)
    (hclosed : s'.closed = s.closed) (hfree : s.allocated p = false)
    (hnew : ∀ handle, s.Outstanding handle → s.addr handle ≠ p) : s'.Distinct := by
  refine ⟨htabled, fun handle hout a ha heq => ?_⟩
  obtain ⟨hpos, hlt, hopen⟩ := hout
  rw [hnext] at hlt
  rw [hclosed] at hopen
  rw [haddr] at heq
  rw [htable] at ha
  rcases List.mem_append.mp ha with ha | ha
  · have halt := lt_nextId_of_mem hs.tabled ha
    rw [Function.update_of_ne (Nat.ne_of_lt halt)] at heq
    by_cases hh : handle = s.core.bus.globals.nextId
    · -- the table holds objects that were not freed
      rw [hh, Function.update_self] at heq
      have hall := allocated_of_mem hs.tabled ha
      rw [heq, hfree] at hall
      cases hall
    · rw [Function.update_of_ne hh] at heq
      exact hs.own handle ⟨hpos, by omega, hopen⟩ a ha heq
  · obtain rfl := List.mem_singleton.mp ha
    by_contra hne
    rw [Function.update_self, Function.update_of_ne (Ne.symm hne)] at heq
    exact hnew handle ⟨hpos, by omega, hopen⟩ heq.symm

omit [DecidableEq Tid] [DecidableEq K] in
/-- A step that needs no address makes no subscribing call. -/
theorem not_subscribes_of_byAddress {a : CoreAction Tid K} (h : ¬ byAddress a = true) :
    ¬ a.Subscribes := by
  intro hsub
  apply h
  cases a with
  | bus a =>
      cases a with
      | call t k call =>
          cases call with
          | subscribe _ _ _ _ _ => rfl
          | _ => exact hsub.elim
      | _ => exact hsub.elim
  | _ => exact hsub.elim

theorem subscribe_distinct {t : Thread (Caller Tid)} {k : K} {eventId : UInt32}
    {callback privateData : Nat} {outSubscription : Bool} {memory : Option Nat}
    (hs : s.Distinct)
    (hfresh : NotReused s
      (.subscribe t k eventId callback privateData outSubscription memory))
    (h : s.next (.subscribe t k eventId callback privateData outSubscription memory) = some s') :
    s'.Distinct := by
  simp only [Handles.next] at h
  split at h
  · cases h
  rename_i hmem
  obtain ⟨c, hc, rfl⟩ := Option.map_eq_some_iff.mp h
  have htabled := (next_table hc).tabled hs.tabled
  obtain ⟨b, hb, rfl⟩ := begin_of_call hc
  have hkeeps : ∀ a < s.core.bus.globals.nextId, (match memory with
      | some p => Function.update s.addr s.core.bus.globals.nextId p
      | none => s.addr) a = s.addr a := by
    intro a ha
    cases memory with
    | none => rfl
    | some p => exact Function.update_of_ne (Nat.ne_of_lt ha) ..
  cases Event.begin_cases hb with
  | subscribeRefused _ => exact hs.shrinks htabled (fun _ h => h) hkeeps rfl fun _ h => h
  | subscribed hmemory _ hok =>
      -- the subscription was stored, so `calloc` has returned an address
      obtain ⟨p, rfl⟩ := Option.isSome_iff_exists.mp hmemory
      have hfree : s.allocated p = false := by
        by_contra hne
        have hall : s.allocated p = true := by simpa using hne
        exact hmem (by simp [hall])
      exact hs.grows htabled rfl rfl rfl rfl hfree (hfresh hok)

/-- A step that does not store a subscription at the address of an outstanding handle keeps
    the addresses apart. -/
theorem next_distinct {a : HandleAction Tid K} (hs : s.Distinct) (hfresh : NotReused s a)
    (h : s.next a = some s') : s'.Distinct := by
  cases a with
  | core a =>
      simp only [Handles.next] at h
      split at h
      · cases h
      · rename_i haddr
        obtain ⟨c, hc, rfl⟩ := Option.map_eq_some_iff.mp h
        have hstep := next_table hc
        obtain ⟨htable, hnext⟩ := shrinks_of_tableStep hstep (not_subscribes_of_byAddress haddr)
        exact hs.shrinks (hstep.tabled hs.tabled) htable (fun _ _ => rfl) hnext fun _ h => h
  | subscribe t k eventId callback privateData outSubscription memory =>
      exact subscribe_distinct hs hfresh h
  | unsubscribe t k handle =>
      simp only [Handles.next] at h
      split at h
      · cases h
      · obtain ⟨c, hc, rfl⟩ := Option.map_eq_some_iff.mp h
        have hstep := next_table hc
        obtain ⟨htable, hnext⟩ := shrinks_of_tableStep hstep fun hsub => hsub
        exact hs.shrinks (hstep.tabled hs.tabled) htable (fun _ _ => rfl) hnext fun _ h => h
  | unsubscribeReturned k =>
      simp only [Handles.next] at h
      split at h
      · obtain rfl := Option.some.inj h
        exact hs.shrinks hs.tabled (fun _ h => h) (fun _ _ => rfl) rfl
          fun _ h => List.mem_cons_of_mem _ h
      · cases h

theorem distinct_of_reachable
    (h : ((handleMachine Tid K).restrict fun s a _ => NotReused s a).Reachable s) :
    s.Distinct := by
  refine h.invariant (I := fun s => s.Distinct) ?_ fun u a v hu hstep => ?_
  rotate_left
  · exact next_distinct hu hstep.2 hstep.1
  rintro s rfl
  refine ⟨⟨List.nodup_nil, fun a ha => (List.not_mem_nil ha).elim, fun a ha => (by cases ha),
    fun k a hk => (by cases hk)⟩, fun handle _ a ha => (List.not_mem_nil ha).elim⟩

/-! ## Unsubscribing -/

omit [DecidableEq Tid] [DecidableEq K] in
/-- What an address stands for: the subscription of the current callback, one in the table,
    or nothing that the bus knows. -/
theorem resolve_cases (s : Handles Tid K) (t : Thread (Caller Tid)) (handle : Nat) :
    (s.core.bus.locals t).currentSubscription = some (s.resolve t handle) ∨
      (s.resolve t handle ∈ s.table ∧ s.addr (s.resolve t handle) = s.addr handle) ∨
      (s.resolve t handle = handle ∧ handle ∉ s.table) := by
  unfold Handles.resolve
  split
  · rename_i a ha
    obtain ⟨hcur, -⟩ := Option.filter_eq_some_iff.mp ha
    exact Or.inl hcur
  · cases hfind : s.table.find? (s.addr · = s.addr handle) with
    | some a =>
        refine Or.inr (Or.inl ⟨List.mem_of_find?_eq_some hfind, ?_⟩)
        simpa using List.find?_some hfind
    | none =>
        refine Or.inr (Or.inr ⟨rfl, fun hmem => ?_⟩)
        have hne := List.find?_eq_none.mp hfind handle hmem
        simp at hne

/-- The first section of an unsubscribing call: refused, or the subscription is taken out of
    the table. -/
theorem begin_unsubscribe {b b' : Bus (Caller Tid) K} {t : Thread (Caller Tid)} {k : K} {a : Nat}
    (h : Event.begin b t k (.unsubscribe (some a)) = some b') :
    (∃ ret, ret ≠ .ok ∧ b'.calls k = .returned (.unsubscribe (some a)) ret none ∧
      b'.globals = b.globals) ∨
    ((b.locals t).currentSubscription ≠ some a ∧ a ∈ b.globals.subscribers ∧
      b'.globals.subscribers = b.globals.subscribers.erase a ∧
      (b'.calls k = .unsubscribeWait a ∨ b'.calls k = .unsubscribeFree a)) := by
  cases Event.begin_cases h with
  | unsubscribeRefused hret => exact Or.inl ⟨_, hret, Function.update_self .., rfl⟩
  | unsubscribed _ hcur hmem =>
      refine Or.inr ⟨hcur, hmem, rfl, ?_⟩
      show Function.update b.calls k _ k = _ ∨ Function.update b.calls k _ k = _
      rw [Function.update_self]
      split
      · exact Or.inl rfl
      · exact Or.inr rfl

/-- An unsubscribe with an outstanding handle takes the subscription of the handle out of the
    table, or it is refused and changes nothing. -/
theorem unsubscribe_own_handle
    (h : ((handleMachine Tid K).restrict fun s a _ => NotReused s a).Reachable s)
    {t : Thread (Caller Tid)} {k : K} {handle : Nat} (hout : s.Outstanding handle)
    (hstep : s.next (.unsubscribe t k handle) = some s') :
    (handle ∈ s.table ∧ s'.table = s.table.erase handle ∧
      (s'.core.bus.calls k = .unsubscribeWait handle ∨
        s'.core.bus.calls k = .unsubscribeFree handle)) ∨
    (∃ call ret out, ret ≠ .ok ∧ s'.core.bus.calls k = .returned call ret out ∧
      s'.core.bus.globals = s.core.bus.globals) := by
  have hs := distinct_of_reachable h
  simp only [Handles.next] at hstep
  split at hstep
  · cases hstep
  · obtain ⟨c, hc, rfl⟩ := Option.map_eq_some_iff.mp hstep
    obtain ⟨b, hb, rfl⟩ := begin_of_call hc
    rcases begin_unsubscribe hb with ⟨ret, hret, hcall, hglobals⟩ | ⟨hcur, hmem, htable, hcall⟩
    · exact Or.inr ⟨_, ret, none, hret, hcall, hglobals⟩
    · -- what is taken out of the table is at the address of the handle
      have hown : s.resolve t handle = handle := by
        rcases resolve_cases s t handle with h | ⟨hin, haddr⟩ | ⟨heq, -⟩
        · exact absurd h hcur
        · exact hs.own handle hout _ hin haddr
        · exact heq
      rw [hown] at hmem htable hcall
      exact Or.inl ⟨hmem, htable, hcall⟩

end Addresses

/-- A start, a subscription at the address `p`, and what follows. -/
def sessionRun (k p : Nat) : List (HandleAction Unit Nat) :=
  [.core (.init (.caller (.inl ()))), .core (.busCall k),
    .core (.bus (.threadCreate (.caller (.inl ())) .ok)),
    .core (.bus (.proceed (.caller (.inl ())))), .core (.busReturned false),
    .core (.componentsReturned .ok), .core .finish,
    .subscribe (.caller (.inl ())) (k + 1) 7 5 0 true (some p)]

/-- The end of the session. -/
def shutdownRun (k : Nat) : List (HandleAction Unit Nat) :=
  [.core (.shutdown (.caller (.inl ()))), .core (.componentsReturned .ok), .core (.busCall k),
    .core (.bus (.proceed .worker)), .core (.bus (.join (.caller (.inl ())) 0)),
    .core (.bus (.proceed (.caller (.inl ())))), .core (.busReturned false), .core .finish]

/-- In the second session the handle of the first is refused, since its address is not in the
    table. -/
theorem unsubscribe_own_handle_stale :
    ∃ s s' : Handles Unit Nat, s.Outstanding 1 ∧ s.table = [2] ∧
      s.next (.unsubscribe (.caller (.inl ())) 9 1) = some s' ∧ s'.table = [2] ∧
      ((1 ∈ s.table ∧ s'.table = s.table.erase 1 ∧
        (s'.core.bus.calls 9 = .unsubscribeWait 1 ∨ s'.core.bus.calls 9 = .unsubscribeFree 1)) ∨
      ∃ call ret out, ret ≠ .ok ∧ s'.core.bus.calls 9 = .returned call ret out ∧
        s'.core.bus.globals = s.core.bus.globals) := by
  have hexec : ∃ s s', Machine.execIf Handles.next NotReused (Handles.zero Unit Nat)
      (sessionRun 0 100 ++ shutdownRun 2 ++ sessionRun 3 200) = some s ∧
      s.next (.unsubscribe (.caller (.inl ())) 9 1) = some s' ∧ s.Outstanding 1 ∧
      s.table = [2] ∧ s'.table = [2] :=
    ⟨_, _, rfl, rfl, ⟨by decide, by decide, by decide⟩, rfl, rfl⟩
  obtain ⟨s, s', hexec, hstep, hout, htable, htable'⟩ := hexec
  have hreach : ((handleMachine Unit Nat).restrict fun s a _ => NotReused s a).Reachable s :=
    ⟨_, _, rfl, Machine.Run.of_execIf hexec⟩
  exact ⟨s, s', hout, htable, hstep, htable', unsubscribe_own_handle hreach hout hstep⟩

/-- The second session has its subscription at the address of the first one's, and the
    handle of the first removes it. -/
theorem unsubscribe_reused_address :
    ¬ ∀ s : Handles Unit Nat, (handleMachine Unit Nat).Reachable s → ∀ t k handle s',
      s.Outstanding handle → s.next (.unsubscribe t k handle) = some s' →
      (handle ∈ s.table ∧ s'.table = s.table.erase handle) ∨
        (∃ call ret out, ret ≠ .ok ∧ s'.core.bus.calls k = .returned call ret out) ∧
          s'.table = s.table := by
  intro hclaim
  have hexec : ∃ s s', Machine.exec Handles.next (Handles.zero Unit Nat)
      (sessionRun 0 100 ++ shutdownRun 2 ++ sessionRun 3 100) = some s ∧
      s.next (.unsubscribe (.caller (.inl ())) 9 1) = some s' ∧ s.Outstanding 1 ∧
      s.table = [2] ∧ s'.table = [] :=
    ⟨_, _, rfl, rfl, ⟨by decide, by decide, by decide⟩, rfl, rfl⟩
  obtain ⟨s, s', hexec, hstep, hout, htable, htable'⟩ := hexec
  rcases hclaim s ⟨_, _, rfl, Machine.Run.of_exec hexec⟩ _ _ 1 s' hout hstep with
    ⟨hmem, -⟩ | ⟨-, hsame⟩
  · rw [htable] at hmem
    exact absurd hmem (by decide)
  · rw [htable, htable'] at hsame
    cases hsame

end Core
end AppCore
