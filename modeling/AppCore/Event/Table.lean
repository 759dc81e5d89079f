/-
  AppCore.Event.Table

  The subscription table and the objects on the heap under the atomic steps of the bus, in
  any order: nothing is assumed of when the bus is started and stopped.
-/

import AppCore.Event.Cases
import Mathlib.Data.List.Nodup

namespace AppCore
namespace Event

variable {Tid K : Type*}

/-- The subscription that a call has taken out of the table. -/
def CallState.taken : CallState → Option Nat
  | .unsubscribeWait a => some a
  | .unsubscribeFree a => some a
  | _ => none

/-- The table holds different objects that exist, and none that a call is going to free. -/
structure Bus.Tabled (s : Bus Tid K) : Prop where
  nodup : s.globals.subscribers.Nodup
  live : ∀ a ∈ s.globals.subscribers, (s.globals.heap a).isSome
  fresh : ∀ a, (s.globals.heap a).isSome → a < s.globals.nextId
  taken : ∀ k a, (s.calls k).taken = some a → a ∉ s.globals.subscribers ∧ a < s.globals.nextId

/-- The same table over the same objects. -/
structure Globals.Keeps (g g' : Globals K) : Prop where
  subscribers : g'.subscribers = g.subscribers
  nextId : g'.nextId = g.nextId
  heap : ∀ a, (g'.heap a).isSome = (g.heap a).isSome

theorem Globals.Keeps.refl (g : Globals K) : g.Keeps g := ⟨rfl, rfl, fun _ => rfl⟩

/-- What a step can do to the table.  `adds` tells whether it may add a subscription. -/
inductive TableStep (adds : Prop) (g : Globals K) (calls : K → CallState) (g' : Globals K)
    (calls' : K → CallState) : Prop
  | kept : g.Keeps g' →
      (∀ k x, (calls' k).taken = some x → (calls k).taken = some x) →
      TableStep adds g calls g' calls'
  | added : adds → g.accepting = true → g'.subscribers = g.subscribers ++ [g.nextId] →
      g'.nextId = g.nextId + 1 →
      (∀ b, (g'.heap b).isSome = true ↔
        (g.heap b).isSome = true ∨ b = g.nextId) →
      (∀ k x, (calls' k).taken = some x → (calls k).taken = some x) →
      TableStep adds g calls g' calls'
  | removed (a : Nat) : a ∈ g.subscribers →
      g'.subscribers = g.subscribers.erase a →
      g'.nextId = g.nextId →
      (∀ b, (g'.heap b).isSome = (g.heap b).isSome) →
      (∀ k x, (calls' k).taken = some x → (calls k).taken = some x ∨ x = a) →
      TableStep adds g calls g' calls'
  | freed (k : K) (a : Nat) : (calls k).taken = some a →
      g'.subscribers = g.subscribers → g'.nextId = g.nextId →
      (∀ b, (g'.heap b).isSome = true ↔ (g.heap b).isSome = true ∧ b ≠ a) →
      (∀ k x, (calls' k).taken = some x → (calls k).taken = some x) →
      TableStep adds g calls g' calls'
  | emptied : g'.subscribers = [] → g'.nextId = g.nextId →
      (∀ b, (g'.heap b).isSome → (g.heap b).isSome) →
      (∀ k x, (calls' k).taken = some x → (calls k).taken = some x) →
      TableStep adds g calls g' calls'

theorem TableStep.tabled {adds : Prop} {s s' : Bus Tid K}
    (h : TableStep adds s.globals s.calls s'.globals s'.calls) (hs : s.Tabled) :
    s'.Tabled := by
  cases h with
  | kept hkeeps htaken =>
      refine ⟨?_, fun a ha => ?_, fun a ha => ?_, fun k a hk => ?_⟩
      · rw [hkeeps.subscribers]
        exact hs.nodup
      · rw [hkeeps.subscribers] at ha
        rw [hkeeps.heap]
        exact hs.live a ha
      · rw [hkeeps.heap] at ha
        rw [hkeeps.nextId]
        exact hs.fresh a ha
      · rw [hkeeps.subscribers, hkeeps.nextId]
        exact hs.taken k a (htaken k a hk)
  | added _ _ hsubs hnext hheap htaken =>
      -- the numbers in the table were given out before
      have hnew : s.globals.nextId ∉ s.globals.subscribers := by
        intro hmem
        exact absurd (hs.fresh _ (hs.live _ hmem)) (lt_irrefl _)
      refine ⟨?_, fun a ha => ?_, fun a ha => ?_, fun k a hk => ?_⟩
      · rw [hsubs]
        exact List.nodup_append.mpr ⟨hs.nodup, List.nodup_singleton _, fun a ha b hb hab => by
          obtain rfl := List.mem_singleton.mp hb
          exact hnew (hab ▸ ha)⟩
      · rw [hsubs] at ha
        rw [hheap]
        rcases List.mem_append.mp ha with ha | ha
        · exact Or.inl (hs.live a ha)
        · exact Or.inr (List.mem_singleton.mp ha)
      · rw [hnext]
        rcases (hheap a).mp ha with ha | rfl
        · have hlt := hs.fresh a ha
          omega
        · omega
      · obtain ⟨hnot, hlt⟩ := hs.taken k a (htaken k a hk)
        rw [hsubs, hnext]
        refine ⟨fun hmem => ?_, by omega⟩
        rcases List.mem_append.mp hmem with hmem | hmem
        · exact hnot hmem
        · obtain rfl := List.mem_singleton.mp hmem
          exact absurd hlt (lt_irrefl _)
  | removed a hmem hsubs hnext hheap htaken =>
      refine ⟨?_, fun b hb => ?_, fun b hb => ?_, fun k b hk => ?_⟩
      · rw [hsubs]
        exact hs.nodup.erase a
      · rw [hsubs] at hb
        rw [hheap]
        exact hs.live b (List.mem_of_mem_erase hb)
      · rw [hheap] at hb
        rw [hnext]
        exact hs.fresh b hb
      · rw [hsubs, hnext]
        rcases htaken k b hk with hold | rfl
        · obtain ⟨hnot, hlt⟩ := hs.taken k b hold
          exact ⟨fun h => hnot (List.mem_of_mem_erase h), hlt⟩
        · exact ⟨hs.nodup.not_mem_erase, hs.fresh b (hs.live b hmem)⟩
  | freed k₀ a hk₀ hsubs hnext hheap htaken =>
      -- what a call has taken out is not in the table
      have hnot := (hs.taken k₀ a hk₀).1
      refine ⟨?_, fun b hb => ?_, fun b hb => ?_, fun k b hk => ?_⟩
      · rw [hsubs]
        exact hs.nodup
      · rw [hsubs] at hb
        refine (hheap b).mpr ⟨hs.live b hb, ?_⟩
        rintro rfl
        exact hnot hb
      · rw [hnext]
        exact hs.fresh b ((hheap b).mp hb).1
      · rw [hsubs, hnext]
        exact hs.taken k b (htaken k b hk)
  | emptied hsubs hnext hheap htaken =>
      refine ⟨?_, fun b hb => ?_, fun b hb => ?_, fun k b hk => ?_⟩
      · rw [hsubs]
        exact List.nodup_nil
      · rw [hsubs] at hb
        exact (List.not_mem_nil hb).elim
      · rw [hnext]
        exact hs.fresh b (hheap b hb)
      · rw [hsubs, hnext]
        exact ⟨List.not_mem_nil, (hs.taken k b (htaken k b hk)).2⟩

/-! ## Heaps -/

theorem isSome_update_map {heap : Heap} {a : Nat} (f : Subscription → Subscription) (b : Nat) :
    (Function.update heap a ((heap a).map f) b).isSome = (heap b).isSome := by
  by_cases hb : b = a
  · subst hb
    rw [Function.update_self, Option.isSome_map]
  · rw [Function.update_of_ne hb]

theorem isSome_retain (eventId : UInt32) (table : List Nat) (heap : Heap) (b : Nat) :
    ((retainMatchingSubscribers eventId table heap).2 b).isSome = (heap b).isSome := by
  induction table generalizing heap with
  | nil => rfl
  | cons a rest ih =>
      cases hsub : heap a with
      | none =>
          simp only [retainMatchingSubscribers, hsub]
          exact ih heap
      | some sub =>
          simp only [retainMatchingSubscribers, hsub]
          split
          · refine (ih _).trans ?_
            have hmap : some { sub with inFlight := sub.inFlight + 1 } =
                (heap a).map fun sub => { sub with inFlight := sub.inFlight + 1 } := by
              rw [hsub]
              rfl
            rw [hmap]
            exact isSome_update_map _ b
          · exact ih heap

/-! ## Sections -/

theorem eventWorker_keeps (g : Globals K) : g.Keeps (eventWorker g).1 := by
  have hhead := eventWorker_cases g
  generalize eventWorker g = r at hhead ⊢
  cases hhead <;> exact ⟨rfl, rfl, fun _ => rfl⟩

theorem advance_keeps {d d' : Delivery} {g g' : Globals K} {started : Option Nat}
    (h : d.advance g = some (g', d', started)) : g.Keeps g' := by
  cases advance_cases h with
  | starts _ _ => exact Globals.Keeps.refl g
  | counted _ => exact ⟨rfl, rfl, fun _ => rfl⟩
  | @finished a _ _ _ _ hfin =>
      obtain ⟨sub, hsub, rfl⟩ := Option.map_eq_some_iff.mp hfin
      refine ⟨rfl, rfl, fun b => ?_⟩
      show (Function.update g.heap a (some _) b).isSome = _
      by_cases hb : b = a
      · subst hb
        rw [Function.update_self, hsub]
        rfl
      · rw [Function.update_of_ne hb]

/-! ## Steps -/

section Steps

variable [DecidableEq Tid] [DecidableEq K] {s s' : Bus Tid K} {t : Thread Tid} {k : K}

omit [DecidableEq Tid] in
/-- A call that changes to a state with nothing taken. -/
theorem taken_update {calls : K → CallState} {st : CallState} (hst : st.taken = none) (k' : K)
    (x : Nat) (h : (Function.update calls k st k').taken = some x) :
    (calls k').taken = some x := by
  by_cases hkk : k' = k
  · subst hkk
    rw [Function.update_self, hst] at h
    cases h
  · rwa [Function.update_of_ne hkk] at h

omit [DecidableEq Tid] in
/-- A section that keeps the table, and after which its call has taken nothing. -/
theorem TableStep.call {adds : Prop} {st : CallState} {g : Globals K} (hg : s.globals.Keeps g)
    (hst : st.taken = none) :
    TableStep adds s.globals s.calls g (Function.update s.calls k st) :=
  TableStep.kept hg (taken_update hst)

/-- The call is a subscribing one. -/
def Call.Subscribes : Call → Prop
  | .subscribe _ _ _ _ _ => True
  | _ => False

theorem begin_table {call : Call} (h : begin s t k call = some s') :
    TableStep call.Subscribes s.globals s.calls s'.globals s'.calls := by
  have hretained : ∀ {eventId subscribers heap},
      retainMatchingSubscribers eventId s.globals.subscribers s.globals.heap =
        (subscribers, heap) → ∀ b, (heap b).isSome = (s.globals.heap b).isSome := by
    intro eventId subscribers heap hretain b
    have hb := isSome_retain eventId s.globals.subscribers s.globals.heap b
    rwa [hretain] at hb
  cases begin_cases h with
  | subscribed _ hacc _ =>
      refine TableStep.added trivial hacc rfl rfl (fun b => ?_) (taken_update rfl)
      show (Function.update s.globals.heap s.globals.nextId _ b).isSome = true ↔ _
      by_cases hb : b = s.globals.nextId
      · rw [hb, Function.update_self]
        simp
      · rw [Function.update_of_ne hb]
        simp [hb]
  | @unsubscribed a _ _ hmem =>
      refine TableStep.removed a hmem rfl rfl (isSome_update_map _) fun k' x hx => ?_
      have hx : (Function.update s.calls k _ k').taken = some x := hx
      by_cases hkk : k' = k
      · subst hkk
        rw [Function.update_self] at hx
        refine Or.inr ?_
        split at hx <;> exact (Option.some.inj hx).symm
      · rw [Function.update_of_ne hkk] at hx
        exact Or.inl hx
  | syncAccepted _ hretain => exact TableStep.call ⟨rfl, rfl, hretained hretain⟩ rfl
  | asyncUnmatched _ _ hretain _ => exact TableStep.call ⟨rfl, rfl, hretained hretain⟩ rfl
  | asyncQueued _ _ hretain _ _ => exact TableStep.call ⟨rfl, rfl, hretained hretain⟩ rfl
  | _ => exact TableStep.call ⟨rfl, rfl, fun _ => rfl⟩ rfl

theorem proceedCall_table (h : proceedCall s t k = some s') :
    TableStep False s.globals s.calls s'.globals s'.calls := by
  cases proceedCall_cases h with
  | published _ _ => exact TableStep.call (Globals.Keeps.refl _) rfl
  | publishing _ hadv => exact TableStep.call (advance_keeps hadv) rfl
  | unsubscribeWaits _ _ => exact TableStep.kept (Globals.Keeps.refl _) fun _ _ hx => hx
  | @unsubscribed a hk _ =>
      -- the subscription stays taken
      refine TableStep.kept (Globals.Keeps.refl _) fun k' x hx => ?_
      have hx : (Function.update s.calls k (.unsubscribeFree a) k').taken = some x := hx
      by_cases hkk : k' = k
      · subst hkk
        rw [Function.update_self] at hx
        rw [hk]
        exact hx
      · rwa [Function.update_of_ne hkk] at hx
  | @freed a hk =>
      refine TableStep.freed k a (by rw [hk]; rfl) rfl rfl (fun b => ?_) (taken_update rfl)
      show (Function.update s.globals.heap a none b).isSome = true ↔ _
      by_cases hb : b = a
      · rw [hb, Function.update_self]
        simp
      · rw [Function.update_of_ne hb]
        simp [hb]
  | stored _ => exact TableStep.call ⟨rfl, rfl, fun _ => rfl⟩ rfl
  | stopWaits _ _ => exact TableStep.kept (Globals.Keeps.refl _) fun _ _ hx => hx
  | stopped _ _ =>
      refine TableStep.emptied rfl rfl (fun b hb => ?_) (taken_update rfl)
      have hb : (if b ∈ s.globals.subscribers then none else s.globals.heap b).isSome = true := hb
      split at hb
      · cases hb
      · exact hb

omit [DecidableEq K] in
theorem proceedWorker_table (h : proceedWorker s = some s') :
    s.globals.Keeps s'.globals ∧ s'.calls = s.calls := by
  cases proceedWorker_cases h with
  | head _ => exact ⟨eventWorker_keeps s.globals, rfl⟩
  | delivered _ _ => exact ⟨Globals.Keeps.refl _, rfl⟩
  | delivering _ hadv => exact ⟨advance_keeps hadv, rfl⟩

theorem proceed_table (h : proceed s t = some s') :
    TableStep False s.globals s.calls s'.globals s'.calls := by
  rcases proceed_cases h with ⟨k, rest, -, h⟩ | ⟨-, -, h⟩
  · exact proceedCall_table h
  · obtain ⟨hkeeps, hcalls⟩ := proceedWorker_table h
    exact TableStep.kept hkeeps fun k x hx => by rwa [hcalls] at hx

theorem callbackReturn_table {ret : SysErr} (h : callbackReturn s t ret = some s') :
    TableStep False s.globals s.calls s'.globals s'.calls := by
  cases callbackReturn_cases h with
  | call _ _ _ => exact TableStep.call (Globals.Keeps.refl _) rfl
  | worker _ _ _ => exact TableStep.kept (Globals.Keeps.refl _) fun _ _ hx => hx

theorem threadCreate_table {ret : SysErr} (h : threadCreate s t ret = some s') :
    TableStep False s.globals s.calls s'.globals s'.calls := by
  cases threadCreate_cases h with
  | failed _ _ _ => exact TableStep.call ⟨rfl, rfl, fun _ => rfl⟩ rfl
  | created _ _ _ => exact TableStep.call ⟨rfl, rfl, fun _ => rfl⟩ rfl

theorem join_table {ret : Int} (h : join s t ret = some s') :
    TableStep False s.globals s.calls s'.globals s'.calls := by
  cases join_cases h with
  | noThread _ _ _ => exact TableStep.call (Globals.Keeps.refl _) rfl
  | itself _ _ _ _ => exact TableStep.call (Globals.Keeps.refl _) rfl
  | failed _ _ _ _ _ => exact TableStep.call (Globals.Keeps.refl _) rfl
  | joined _ _ _ _ _ _ => exact TableStep.call ⟨rfl, rfl, fun _ => rfl⟩ rfl

end Steps

end Event
end AppCore
