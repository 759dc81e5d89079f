/-
  AppCore.Event.Sessions

  The stages of a session: the bus is shut, a start brings it up, a stop shuts it again.
  The other steps leave a stage alone.
-/

import AppCore.Event.Ordinary

namespace AppCore
namespace Event

variable {Tid K : Type*}

/-! ## Stages -/

/-- Both flags are `isOpen`, and there is a worker if `live`. -/
structure Bus.Stands (s : Bus Tid K) (isOpen live : Bool) : Prop where
  running : s.globals.running = isOpen
  accepting : s.globals.accepting = isOpen
  worker : s.worker = .absent ↔ live = false

/-- The bus between a start and a stop. -/
structure Bus.Up (s : Bus Tid K) : Prop where
  stands : s.Stands true true
  thread : s.globals.thread = true

/-- The bus between a stop and a start: no session has left anything behind. -/
structure Bus.Shut (s : Bus Tid K) : Prop where
  stands : s.Stands false false
  queued : s.globals.queued = []
  subscribers : s.globals.subscribers = []
  refs : ∀ k, (s.calls k).refs = []

/-- The stages of a start. -/
inductive Bus.StartStage (s : Bus Tid K) : CallState → Prop
  | starting : s.Stands true false → StartStage s .starting
  | storing : s.Stands true true → StartStage s .storing
  | up {out} : s.Up → StartStage s (.returned .start .ok out)
  | shut {ret out} : ret ≠ .ok → s.Shut → StartStage s (.returned .start ret out)

/-- The stages of a stop. -/
inductive Bus.StopStage (s : Bus Tid K) : CallState → Prop
  | joining : s.Stands false true → s.globals.thread = true → StopStage s .stopJoin
  | waiting : s.Stands false false → s.globals.queued = [] → StopStage s .stopWait
  | shut {ret out} : s.Shut → StopStage s (.returned .stop ret out)

/-- A call in `sys_event_bus_start` or `sys_event_bus_stop`. -/
def CallState.InSession (st : CallState) : Prop :=
  st = .starting ∨ st = .storing ∨ st = .stopJoin ∨ st = .stopWait

section Stages

variable {s s' : Bus Tid K} {st : CallState} {isOpen live : Bool}

theorem Globals.QueueOk.queueCount_eq_zero {g : Globals K} (h : g.QueueOk)
    (hqueued : g.queued = []) : g.queueCount = 0 := by
  rw [← h.holds.length, hqueued, List.length_nil]

theorem Bus.StartStage.session (h : s.StartStage st) : st.Session := by
  cases h <;> trivial

theorem Bus.StopStage.session (h : s.StopStage st) : st.Session := by
  cases h <;> trivial

/-- A bus that was shut, with no start in progress, can be started. -/
theorem Bus.Shut.idle (hs : s.Shut) (hsound : s.Sound) (hno : ∀ k, ¬ (s.calls k).InSession) :
    s.Idle := by
  refine ⟨hs.stands.running, hs.stands.worker.mpr rfl, fun k => ⟨fun hk => ?_, fun hk => ?_⟩,
    hs.subscribers, hsound.shaped.queueOk.queueCount_eq_zero hs.queued⟩
  · exact hno k (Or.inl hk)
  · exact hno k (Or.inr (Or.inl hk))

theorem Ordinary.stands (h : Ordinary s s') (hs : s.Stands isOpen live) :
    s'.Stands isOpen live :=
  ⟨h.flags.running.trans hs.running, h.flags.accepting.trans hs.accepting,
    h.worker.trans hs.worker⟩

theorem Ordinary.up (h : Ordinary s s') (hs : s.Up) : s'.Up :=
  ⟨h.stands hs.stands, h.flags.thread.trans hs.thread⟩

variable [DecidableEq K] {adds : Prop}

/-- Nothing comes in while the bus is shut. -/
theorem Ordinary.shut (h : Ordinary s s') (heffect : Effect s s')
    (htable : TableStep adds s.globals s.calls s'.globals s'.calls) (hs : s.Shut) : s'.Shut :=
  ⟨h.stands hs.stands, heffect.queued_nil hs.stands.accepting hs.queued,
    htable.table_nil hs.stands.accepting hs.subscribers,
    heffect.refs_nil hs.subscribers hs.refs⟩

theorem Ordinary.startStage (h : Ordinary s s') (heffect : Effect s s')
    (htable : TableStep adds s.globals s.calls s'.globals s'.calls) (hs : s.StartStage st) :
    s'.StartStage st := by
  cases hs with
  | starting hstands => exact Bus.StartStage.starting (h.stands hstands)
  | storing hstands => exact Bus.StartStage.storing (h.stands hstands)
  | up hup => exact Bus.StartStage.up (h.up hup)
  | shut hret hshut => exact Bus.StartStage.shut hret (h.shut heffect htable hshut)

theorem Ordinary.stopStage (h : Ordinary s s') (heffect : Effect s s')
    (htable : TableStep adds s.globals s.calls s'.globals s'.calls) (hs : s.StopStage st) :
    s'.StopStage st := by
  cases hs with
  | joining hstands hthread =>
      exact Bus.StopStage.joining (h.stands hstands) (h.flags.thread.trans hthread)
  | waiting hstands hqueued =>
      exact Bus.StopStage.waiting (h.stands hstands)
        (heffect.queued_nil hstands.accepting hqueued)
  | shut hshut => exact Bus.StopStage.shut (h.shut heffect htable hshut)

end Stages

/-! ## The steps of a start and of a stop -/

section Steps

variable [DecidableEq K] {s s' : Bus Tid K} {k : K}

/-- Nobody has subscribed or published before the creation of the thread fails, `pthread_join`
    succeeds, and the wait of a stop does not end while an unsubscribe waits for a callback. -/
def Isolates (s : Bus Tid K) : Action Tid K → Prop
  | .threadCreate _ ret => ret ≠ .ok →
      s.globals.subscribers = [] ∧ s.globals.queueCount = 0 ∧ ∀ k, (s.calls k).refs = []
  | .join _ ret => ret = 0
  | .proceed t => ∀ k rest, s.stack t = k :: rest → s.calls k = .stopWait →
      hasInFlightCallbacks s.globals = false →
      ∀ k' a, s.calls k' = .unsubscribeWait a → s.globals.heap.inFlight a = 0
  | _ => True

/-- The sections of a start and of a stop after the first; `k` is the call. -/
inductive SessionStep (s : Bus Tid K) (k : K) (s' : Bus Tid K) : Prop
  | created : s.calls k = .starting → s'.globals = { s.globals with thread := false } →
      s'.worker = .waiting → s'.calls = Function.update s.calls k .storing → SessionStep s k s'
  /-- The thread could not be created. -/
  | failed {ret} : s.calls k = .starting → ret ≠ .ok →
      s.globals.subscribers = [] ∧ s.globals.queueCount = 0 ∧ (∀ k, (s.calls k).refs = []) →
      s'.globals = startFailed { s.globals with thread := false } → s'.worker = s.worker →
      s'.calls = Function.update s.calls k (.returned .start ret none) → SessionStep s k s'
  | stored : s.calls k = .storing → s'.globals = { s.globals with thread := true } →
      s'.worker = s.worker → s'.calls = Function.update s.calls k (.returned .start .ok none) →
      SessionStep s k s'
  | joined : s.calls k = .stopJoin → s.worker = .exited →
      s'.globals = { s.globals with thread := false } → s'.worker = .absent →
      s'.calls = Function.update s.calls k .stopWait → SessionStep s k s'
  /-- The wait goes on. -/
  | waited : s.calls k = .stopWait → s' = s → SessionStep s k s'
  | stopped : s.calls k = .stopWait → hasInFlightCallbacks s.globals = false →
      (∀ k' a, s.calls k' = .unsubscribeWait a → s.globals.heap.inFlight a = 0) →
      s'.globals.subscribers = [] → s'.globals.queued = s.globals.queued →
      s.globals.SameFlags s'.globals → s'.worker = s.worker →
      s'.calls = Function.update s.calls k (.returned .stop .ok none) → SessionStep s k s'

variable [DecidableEq Tid] {t : Thread Tid}

theorem proceedCall_session (hallowed : s.calls k = .stopWait →
      hasInFlightCallbacks s.globals = false →
      ∀ k' a, s.calls k' = .unsubscribeWait a → s.globals.heap.inFlight a = 0)
    (h : proceedCall s t k = some s') : Ordinary s s' ∨ SessionStep s k s' := by
  by_cases hsession : (s.calls k).Session
  · right
    cases proceedCall_cases h with
    | published hk _ =>
        rw [hk] at hsession
        exact hsession.elim
    | publishing hk _ =>
        rw [hk] at hsession
        exact hsession.elim
    | unsubscribeWaits hk _ =>
        rw [hk] at hsession
        exact hsession.elim
    | unsubscribed hk _ =>
        rw [hk] at hsession
        exact hsession.elim
    | freed hk =>
        rw [hk] at hsession
        exact hsession.elim
    | stored hk => exact SessionStep.stored hk rfl rfl rfl
    | stopWaits hk _ => exact SessionStep.waited hk rfl
    | stopped hk hnone =>
        exact SessionStep.stopped hk hnone (hallowed hk hnone) rfl rfl ⟨rfl, rfl, rfl⟩ rfl rfl
  · exact Or.inl (proceedCall_ordinary hsession h)

theorem threadCreate_session {ret : SysErr} (hallowed : Isolates s (.threadCreate t ret))
    (h : threadCreate s t ret = some s') : ∃ k, SessionStep s k s' := by
  cases threadCreate_cases h with
  | failed _ hk hret => exact ⟨_, SessionStep.failed hk hret (hallowed hret) rfl rfl rfl⟩
  | created _ hk _ => exact ⟨_, SessionStep.created hk rfl rfl rfl⟩

/-- A join that is not refused. -/
theorem join_session {ret : Int} (hallowed : Isolates s (.join t ret))
    (hrefused : ∀ k rest, s.stack t = k :: rest → s.calls k = .stopJoin →
      s.globals.thread = true ∧ t ≠ .worker)
    (h : join s t ret = some s') : ∃ k, SessionStep s k s' := by
  cases join_cases h with
  | noThread hstack hk hthread =>
      have hcreated := (hrefused _ _ hstack hk).1
      rw [hthread] at hcreated
      cases hcreated
  | itself hstack hk _ hself => exact absurd hself (hrefused _ _ hstack hk).2
  | failed _ _ _ _ hret => exact absurd hallowed hret
  | joined _ hk _ _ _ hexited => exact ⟨_, SessionStep.joined hk hexited rfl rfl rfl⟩

/-- A step that neither begins a start nor a stop. -/
theorem next_session {e : Action Tid K} (hallowed : Isolates s e)
    (hcall : ∀ t k call, e = .call t k call → call ≠ .start ∧ call ≠ .stop)
    (hrefused : ∀ t k rest, s.stack t = k :: rest → s.calls k = .stopJoin →
      s.globals.thread = true ∧ t ≠ .worker)
    (h : next s e = some s') : Ordinary s s' ∨ ∃ k, SessionStep s k s' := by
  cases e with
  | call t k call =>
      obtain ⟨hstart, hstop⟩ := hcall t k call rfl
      simp only [next] at h
      split at h
      · rename_i hcan
        exact Or.inl (begin_ordinary hcan.2 hstart hstop h)
      · cases h
  | proceed t =>
      have h : proceed s t = some s' := h
      rcases proceed_cases h with ⟨k, rest, hstack, h⟩ | ⟨-, -, h⟩
      · exact (proceedCall_session (hallowed k rest hstack) h).imp id fun hstep => ⟨k, hstep⟩
      · exact Or.inl (proceedWorker_ordinary h)
  | callbackReturn t ret => exact Or.inl (callbackReturn_ordinary h)
  | threadCreate t ret => exact Or.inr (threadCreate_session hallowed h)
  | join t ret => exact Or.inr (join_session hallowed (hrefused t) h)

end Steps

/-! ## The stages are passed in order -/

section Passing

variable [DecidableEq K] {s s' : Bus Tid K} {k : K}

omit [DecidableEq K] in
/-- A callback that is in progress when no subscription in the table is in flight belongs to
    one that an unsubscribe waits for. -/
theorem refs_nil_of_not_inFlight (hs : s.Sound) (htable : hasInFlightCallbacks s.globals = false)
    (hwaits : ∀ k a, s.calls k = .unsubscribeWait a → s.globals.heap.inFlight a = 0) (k : K) :
    (s.calls k).refs = [] := by
  rw [List.eq_nil_iff_forall_not_mem]
  intro a ha
  have hpos := hs.counted.inFlight_of_call ha
  have hobj : s.globals.heap.objects a = 1 := by
    obtain ⟨sub, hsub⟩ := Option.isSome_iff_exists.mp (isSome_of_inFlight hpos)
    exact objects_of_some hsub
  have howner := hs.owned.owner a
  by_cases hmem : a ∈ s.globals.subscribers
  · -- the wait loop has seen every count of the table
    have hzero := List.any_eq_false.mp htable a hmem
    have hzero : s.globals.heap.inFlight a = 0 := by simpa using hzero
    omega
  · rw [List.count_eq_zero_of_not_mem hmem] at howner
    obtain ⟨k', hk'⟩ : ∃ k', (s.calls k').detached.count a ≠ 0 := by
      by_contra hnone
      have hsum : ∑ᶠ k, (s.calls k).detached.count a = 0 := by
        apply finsum_eq_zero_of_forall_eq_zero
        intro k'
        by_contra hne
        exact hnone ⟨k', hne⟩
      omega
    have hdetached : a ∈ (s.calls k').detached := List.count_pos_iff.mp (Nat.pos_of_ne_zero hk')
    have hzero : s.globals.heap.inFlight a = 0 := by
      cases hst : s.calls k' with
      | unsubscribeWait b =>
          rw [hst] at hdetached
          obtain rfl := List.mem_singleton.mp hdetached
          exact hwaits k' a hst
      | unsubscribeFree b =>
          rw [hst] at hdetached
          obtain rfl := List.mem_singleton.mp hdetached
          exact hs.owned.freeing k' a hst
      | notStarted => rw [hst] at hdetached; exact (List.not_mem_nil hdetached).elim
      | starting => rw [hst] at hdetached; exact (List.not_mem_nil hdetached).elim
      | storing => rw [hst] at hdetached; exact (List.not_mem_nil hdetached).elim
      | stopJoin => rw [hst] at hdetached; exact (List.not_mem_nil hdetached).elim
      | stopWait => rw [hst] at hdetached; exact (List.not_mem_nil hdetached).elim
      | publishing d firstError => rw [hst] at hdetached; exact (List.not_mem_nil hdetached).elim
      | returned call ret out => rw [hst] at hdetached; exact (List.not_mem_nil hdetached).elim
    omega

/-- A call that has returned has no callback to finish. -/
theorem refs_update_returned {calls : K → CallState} {call : Call} {ret : SysErr}
    {out : Option Nat} (h : ∀ k, (calls k).refs = []) (k' : K) :
    (Function.update calls k (.returned call ret out) k').refs = [] := by
  by_cases hkk : k' = k
  · rw [hkk, Function.update_self]
    rfl
  · rw [Function.update_of_ne hkk]
    exact h k'

omit [DecidableEq K] in
theorem queued_eq_nil {g : Globals K} (h : g.queueCount = 0) : g.queued = [] := by
  rw [Globals.queued, h]
  rfl

/-- A step of the start keeps its stage. -/
theorem SessionStep.startStage (h : SessionStep s k s') (hs : s.StartStage (s.calls k)) :
    s'.StartStage (s'.calls k) := by
  cases h with
  | created hk hg hw hcalls =>
      rw [hk] at hs
      cases hs with
      | starting hstands =>
          rw [hcalls, Function.update_self]
          refine Bus.StartStage.storing ⟨?_, ?_, ?_⟩
          · rw [hg]
            exact hstands.running
          · rw [hg]
            exact hstands.accepting
          · rw [hw]
            simp
  | failed hk hret hempty hg hw hcalls =>
      obtain ⟨hsubs, hcount, hrefs⟩ := hempty
      rw [hk] at hs
      cases hs with
      | starting hstands =>
          rw [hcalls, Function.update_self]
          refine Bus.StartStage.shut hret ⟨⟨?_, ?_, ?_⟩, ?_, ?_, fun k' => ?_⟩
          · rw [hg]
            rfl
          · rw [hg]
            rfl
          · rw [hw]
            exact hstands.worker.trans (by simp)
          · rw [hg]
            exact queued_eq_nil hcount
          · rw [hg]
            exact hsubs
          · rw [hcalls]
            exact refs_update_returned hrefs k'
  | stored hk hg hw hcalls =>
      rw [hk] at hs
      cases hs with
      | storing hstands =>
          rw [hcalls, Function.update_self]
          refine Bus.StartStage.up ⟨⟨?_, ?_, ?_⟩, ?_⟩
          · rw [hg]
            exact hstands.running
          · rw [hg]
            exact hstands.accepting
          · rw [hw]
            exact hstands.worker
          · rw [hg]
  | joined hk _ _ _ _ => rw [hk] at hs; cases hs
  | waited hk _ => rw [hk] at hs; cases hs
  | stopped hk _ _ _ _ _ _ _ => rw [hk] at hs; cases hs

/-- A step of the stop keeps its stage. -/
theorem SessionStep.stopStage (h : SessionStep s k s') (hsound : s.Sound)
    (hs : s.StopStage (s.calls k)) : s'.StopStage (s'.calls k) := by
  cases h with
  | created hk _ _ _ => rw [hk] at hs; cases hs
  | failed hk _ _ _ _ _ => rw [hk] at hs; cases hs
  | stored hk _ _ _ => rw [hk] at hs; cases hs
  | joined hk hexited hg hw hcalls =>
      -- a worker leaves its loop when the queue is empty
      have hqueued := (hsound.shaped.flagged.exited hexited).2
      rw [hk] at hs
      cases hs with
      | joining hstands _ =>
          rw [hcalls, Function.update_self]
          refine Bus.StopStage.waiting ⟨?_, ?_, ?_⟩ ?_
          · rw [hg]
            exact hstands.running
          · rw [hg]
            exact hstands.accepting
          · rw [hw]
            simp
          · rw [hg]
            exact hqueued
  | waited _ heq =>
      rw [heq]
      exact hs
  | stopped hk hnone hwaits hsubs hqueued hflags hw hcalls =>
      have hrefs := refs_nil_of_not_inFlight hsound hnone hwaits
      rw [hk] at hs
      cases hs with
      | waiting hstands hempty =>
          rw [hcalls, Function.update_self]
          refine Bus.StopStage.shut ⟨⟨?_, ?_, ?_⟩, hqueued.trans hempty, hsubs, fun k' => ?_⟩
          · exact hflags.running.trans hstands.running
          · exact hflags.accepting.trans hstands.accepting
          · rw [hw]
            exact hstands.worker
          · rw [hcalls]
            exact refs_update_returned hrefs k'

/-- A stop comes to its join with its first section only. -/
theorem SessionStep.not_joining (h : SessionStep s k s') : s'.calls k ≠ .stopJoin := by
  cases h with
  | created _ _ _ hcalls => rw [hcalls, Function.update_self]; simp
  | failed _ _ _ _ _ hcalls => rw [hcalls, Function.update_self]; simp
  | stored _ _ _ hcalls => rw [hcalls, Function.update_self]; simp
  | joined _ _ _ _ hcalls => rw [hcalls, Function.update_self]; simp
  | waited hk heq => rw [heq, hk]; simp
  | stopped _ _ _ _ _ _ _ hcalls => rw [hcalls, Function.update_self]; simp

theorem SessionStep.inSession (h : SessionStep s k s') : (s.calls k).InSession := by
  cases h with
  | created hk _ _ _ => exact Or.inl hk
  | failed hk _ _ _ _ _ => exact Or.inl hk
  | stored hk _ _ _ => exact Or.inr (Or.inl hk)
  | joined hk _ _ _ _ => exact Or.inr (Or.inr (Or.inl hk))
  | waited hk _ => exact Or.inr (Or.inr (Or.inr hk))
  | stopped hk _ _ _ _ _ _ _ => exact Or.inr (Or.inr (Or.inr hk))

variable [DecidableEq Tid] {t : Thread Tid}

/-- A start of a bus that was shut goes on to the creation of its thread. -/
theorem begin_startStage (hs : s.Shut) (h : begin s t k .start = some s') :
    s'.StartStage (s'.calls k) ∧ s'.calls k = .starting ∧
      s'.globals.subscribers = [] := by
  cases begin_cases h with
  | startRefused hrun =>
      rw [hs.stands.running] at hrun
      cases hrun
  | started _ =>
      have hk : (Function.update s.calls k CallState.starting) k = .starting :=
        Function.update_self ..
      refine ⟨?_, hk, hs.subscribers⟩
      show Bus.StartStage _ (Function.update s.calls k CallState.starting k)
      rw [hk]
      exact Bus.StartStage.starting ⟨rfl, rfl, hs.stands.worker.trans (by simp)⟩

/-- A stop goes on to its join, or finds the bus shut. -/
theorem begin_stopStage (hs : s.Up ∨ s.Shut) (h : begin s t k .stop = some s') :
    s'.StopStage (s'.calls k) ∧ (s'.calls k = .stopJoin → s.globals.running = true) := by
  cases begin_cases h with
  | stopIdle hrun =>
      have hshut : s.Shut := hs.resolve_left fun hup => by
        rw [hup.stands.running] at hrun
        cases hrun
      have hk : Function.update s.calls k (CallState.returned .stop .ok none) k =
          .returned .stop .ok none := Function.update_self ..
      constructor
      · show Bus.StopStage _ (Function.update s.calls k (CallState.returned .stop .ok none) k)
        rw [hk]
        refine Bus.StopStage.shut ⟨⟨hshut.stands.running, rfl, hshut.stands.worker⟩, hshut.queued,
          hshut.subscribers, fun k' => ?_⟩
        exact refs_update_returned hshut.refs k'
      · intro hjoin
        have hover : Function.update s.calls k (CallState.returned .stop .ok none) k = .stopJoin :=
          hjoin
        rw [hk] at hover
        cases hover
  | stopping hrun =>
      have hup : s.Up := hs.resolve_right fun hshut => by
        rw [hshut.stands.running] at hrun
        cases hrun
      refine ⟨?_, fun _ => hrun⟩
      show Bus.StopStage _ (Function.update s.calls k CallState.stopJoin k)
      rw [Function.update_self]
      exact Bus.StopStage.joining ⟨rfl, rfl, hup.stands.worker⟩ hup.thread

end Passing

end Event
end AppCore
