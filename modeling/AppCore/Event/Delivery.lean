/-
  AppCore.Event.Delivery

  Every callback that an accepted publishing call asks for is started once, in order, and
  no other callback is.
-/

import AppCore.Event.Accepting
import AppCore.Event.References

namespace AppCore
namespace Event

variable {Tid K : Type*} {s s' : Bus Tid K}

/-- The callbacks that were started, with the publishing calls they are for. -/
def startedAll (log : List (K × Obs)) : List (K × SysEvent × Nat) :=
  log.filterMap fun
    | (k, .started event a) => some (k, event, a)
    | _ => none

/-- The callbacks that the accepted calls ask for. -/
def expected (log : List (K × Obs)) : List (K × SysEvent × Nat) :=
  log.flatMap fun
    | (k, .accepted event subscribers) => subscribers.map fun a => (k, event, a)
    | _ => []

theorem startedAll_append (log log' : List (K × Obs)) :
    startedAll (log ++ log') = startedAll log ++ startedAll log' := List.filterMap_append

theorem expected_append (log log' : List (K × Obs)) :
    expected (log ++ log') = expected log ++ expected log' := List.flatMap_append

/-- What the publishing calls have caused. -/
structure Bus.Delivered [DecidableEq K] (s : Bus Tid K) : Prop where
  /-- Of what was accepted asynchronously, the worker and the queue hold what is missing. -/
  order : startedAll s.asyncLog ++ s.worker.toStart ++ s.globals.queued.flatMap Work.toStart =
    expected s.asyncLog
  async : ∀ k, (s.calls k).AsyncReports (accepts (ofCall s.asyncLog k))
  sync : ∀ k, (s.calls k).Reports (ofCall s.syncLog k)

/-- The payload is the first `size` bytes of `data`, or `NULL` where the size is 0. -/
def FirstBytes (data : Option (List UInt8)) (size : Nat) (payload : Option (List UInt8)) : Prop :=
  (size = 0 ∧ payload = none) ∨
    ∃ bytes, 0 < size ∧ data = some bytes ∧ payload = some (bytes.take size)

/-- The callbacks are the ones accepted: each once, in order, and no other. -/
structure Bus.ExactlyOnce [DecidableEq K] (s : Bus Tid K) : Prop where
  /-- Asynchronous events are delivered in the order of their acceptance. -/
  order : startedAll s.asyncLog ++ s.worker.toStart ++ s.globals.queued.flatMap Work.toStart =
    expected s.asyncLog
  /-- An asynchronous publish that has returned `SYS_OK` was accepted once, with the number and
      the payload given. -/
  asyncAccepted : ∀ k eventId data size memory out,
    s.calls k = .returned (.publishAsync eventId data size memory) .ok out →
    ∃ event subscribers, event.id = eventId ∧ event.abiVersion = 1 ∧ event.size = size ∧
      FirstBytes data size event.data ∧
      accepts (ofCall s.asyncLog k) = [(event, subscribers)] ∧
      starts (ofCall s.asyncLog k) <+: subscribers.map (event, ·)
  /-- A refused one starts no callback. -/
  asyncRefused : ∀ k eventId data size memory ret out,
    s.calls k = .returned (.publishAsync eventId data size memory) ret out → ret ≠ .ok →
    accepts (ofCall s.asyncLog k) = [] ∧ starts (ofCall s.asyncLog k) = []
  /-- A synchronous publish that has returned was accepted, started every callback once with the
      number and the payload given and returned their first error, or was refused and started
      none. -/
  syncAnswered : ∀ k eventId data size ret out,
    s.calls k = .returned (.publishSync eventId data size) ret out →
    (∃ event subscribers, event.id = eventId ∧ event.abiVersion = 1 ∧ event.size = size ∧
      event.data = data ∧ accepts (ofCall s.syncLog k) = [(event, subscribers)] ∧
      starts (ofCall s.syncLog k) = subscribers.map (event, ·) ∧
      (results (ofCall s.syncLog k)).length = subscribers.length ∧
      ret = firstError (results (ofCall s.syncLog k))) ∨
    (ret ≠ .ok ∧ ofCall s.syncLog k = [])

/-- What a step accepts, it accepts for the subscriptions of the event in the table. -/
def AcceptsMatching (s s' : Bus Tid K) : Prop :=
  ∃ syncNew asyncNew, s'.syncLog = s.syncLog ++ syncNew ∧ s'.asyncLog = s.asyncLog ++ asyncNew ∧
    ∀ k event subscribers, (k, Obs.accepted event subscribers) ∈ syncNew ++ asyncNew →
      subscribers = s.globals.matching event.id

section Logs

variable [DecidableEq K] {k : K}

theorem ofCall_append {β : Type*} (log log' : List (K × β)) (k : K) :
    ofCall (log ++ log') k = ofCall log k ++ ofCall log' k := List.filterMap_append

theorem ofCall_cons_self {β : Type*} (k : K) (x : β) (log : List (K × β)) :
    ofCall ((k, x) :: log) k = x :: ofCall log k := List.filterMap_cons_some (if_pos rfl)

theorem ofCall_cons_of_ne {β : Type*} {k k' : K} (h : k' ≠ k) (x : β) (log : List (K × β)) :
    ofCall ((k', x) :: log) k = ofCall log k := List.filterMap_cons_none (if_neg h)

/-- The entries of a call after entries of one call were added. -/
theorem ofCall_append_map {β : Type*} (log : List (K × β)) (k : K) (xs : List β) (k' : K) :
    ofCall (log ++ xs.map fun x => (k, x)) k' =
      if k' = k then ofCall log k ++ xs else ofCall log k' := by
  rw [ofCall_append]
  by_cases hkk : k' = k
  · subst hkk
    have hnew : ofCall (xs.map fun x => (k', x)) k' = xs := by
      induction xs with
      | nil => rfl
      | cons x xs ih => rw [List.map_cons, ofCall_cons_self, ih]
    rw [if_pos rfl, hnew]
  · have hnone : ofCall (xs.map fun x => (k, x)) k' = [] := by
      induction xs with
      | nil => rfl
      | cons x xs ih => rw [List.map_cons, ofCall_cons_of_ne (Ne.symm hkk), ih]
    rw [if_neg hkk, hnone, List.append_nil]

theorem starts_ofCall (log : List (K × Obs)) (k : K) :
    starts (ofCall log k) = ofCall (startedAll log) k := by
  induction log with
  | nil => rfl
  | cons x log ih =>
      obtain ⟨k', o⟩ := x
      by_cases hkk : k' = k
      · subst hkk
        rw [ofCall_cons_self]
        cases o with
        | started event a =>
            show (event, a) :: starts (ofCall log k') = ofCall ((k', event, a) :: startedAll log) k'
            rw [ofCall_cons_self, ih]
        | accepted event subscribers => exact ih
        | result ret => exact ih
      · rw [ofCall_cons_of_ne hkk]
        cases o with
        | started event a =>
            show _ = ofCall ((k', event, a) :: startedAll log) k
            rw [ofCall_cons_of_ne hkk, ih]
        | accepted event subscribers => exact ih
        | result ret => exact ih

theorem ofCall_expected (log : List (K × Obs)) (k : K) :
    ofCall (expected log) k =
      (accepts (ofCall log k)).flatMap fun x => x.2.map fun a => (x.1, a) := by
  induction log with
  | nil => rfl
  | cons x log ih =>
      obtain ⟨k', o⟩ := x
      cases o with
      | accepted event subscribers =>
          have hcons : expected ((k', .accepted event subscribers) :: log) =
              subscribers.map (fun a => (k', event, a)) ++ expected log := rfl
          rw [hcons, ofCall_append, ih]
          by_cases hkk : k' = k
          · subst hkk
            have hnew := ofCall_append_map [] k' (subscribers.map fun a => (event, a)) k'
            rw [List.nil_append, if_pos rfl, List.map_map] at hnew
            rw [ofCall_cons_self]
            exact congrArg (· ++ _) hnew
          · have hnew := ofCall_append_map [] k' (subscribers.map fun a => (event, a)) k
            rw [List.nil_append, if_neg (Ne.symm hkk), List.map_map] at hnew
            rw [ofCall_cons_of_ne hkk]
            exact congrArg (· ++ _) hnew
      | started event a =>
          by_cases hkk : k' = k
          · subst hkk
            rw [ofCall_cons_self]
            exact ih
          · rw [ofCall_cons_of_ne hkk]
            exact ih
      | result ret =>
          by_cases hkk : k' = k
          · subst hkk
            rw [ofCall_cons_self]
            exact ih
          · rw [ofCall_cons_of_ne hkk]
            exact ih

theorem not_mem_of_accepts {obs : List Obs} (h : accepts obs = []) (event : SysEvent)
    (subscribers : List Nat) : Obs.accepted event subscribers ∉ obs := by
  intro hmem
  have hacc : (event, subscribers) ∈ accepts obs := List.mem_filterMap.mpr ⟨_, hmem, rfl⟩
  rw [h] at hacc
  cases hacc

end Logs

/-! ## Effects -/

variable [DecidableEq K] {k : K}

/-- The order equation, one effect at a time. -/
theorem Effect.order (h : Effect s s')
    (ho : startedAll s.asyncLog ++ s.worker.toStart ++ s.globals.queued.flatMap Work.toStart =
      expected s.asyncLog) :
    startedAll s'.asyncLog ++ s'.worker.toStart ++ s'.globals.queued.flatMap Work.toStart =
      expected s'.asyncLog := by
  cases h with
  | moved hsame _ _ _ hstart => rw [hsame.queued, hstart, ho]
  | workerMoved hsame _ _ _ hstart => rw [hsame.queued, hstart, ho]
  | @workerStarted k d a rest locals hw hphase hpending =>
      have htoStart : s.worker.toStart =
          (k, d.event, a) :: WorkerLoop.toStart (.delivering k { d with phase := .running }) := by
        rw [hw]
        simp [WorkerLoop.toStart, Delivery.toStart, hphase, hpending]
      have hstarted : startedAll (s.asyncLog ++ [(k, .started d.event a)]) =
          startedAll s.asyncLog ++ [(k, d.event, a)] := startedAll_append _ _
      have hexpected : expected (s.asyncLog ++ [(k, .started d.event a)]) =
          expected s.asyncLog := (expected_append _ _).trans (List.append_nil _)
      rw [htoStart] at ho
      dsimp only
      rw [hstarted, hexpected, ← ho]
      simp
  | subscribed => exact ho
  | detached => exact ho
  | published event hk habi hret htab hqueue hqueued => rw [hqueued, ho]
  | @accepted k call g event works hk hrep hasync hret htab hacc hqueue hqueued hsubs hstarts =>
      have hstarted : startedAll (s.asyncLog ++
          [(k, .accepted event (s.globals.matching event.id))]) = startedAll s.asyncLog :=
        (startedAll_append _ _).trans (List.append_nil _)
      have hexpected : expected (s.asyncLog ++
          [(k, .accepted event (s.globals.matching event.id))]) =
          expected s.asyncLog ++ (s.globals.matching event.id).map fun a => (k, event, a) := by
        rw [expected_append]
        exact congrArg (_ ++ ·) (List.append_nil _)
      rw [hstarted, hexpected, hqueued, List.flatMap_append, hstarts, ← List.append_assoc, ho]
  | @taken w rest g hw hqueued hheap htab hqueue hrest =>
      rw [hw, hqueued, List.flatMap_cons] at ho
      have htoStart : WorkerLoop.toStart (.delivering w.call ⟨w.event, w.subscribers, .ready⟩) =
          w.toStart := rfl
      dsimp only
      rw [htoStart, hrest, ← ho]
      simp [WorkerLoop.toStart]
  | callFinished => exact ho
  | @workerFinished k d a rest heap locals hw hphase hpending =>
      have htoStart : WorkerLoop.toStart
          (.delivering k { d with pending := rest, phase := .ready }) = s.worker.toStart := by
        rw [hw]
        simp [WorkerLoop.toStart, Delivery.toStart, hphase, hpending]
      dsimp only [Globals.queued] at ho ⊢
      rw [htoStart, ho]
  | freed => exact ho
  | stopped => exact ho

/-- A relation between a call and its records after one call has moved. -/
theorem reports_update {R : CallState → List Obs → Prop} {calls : K → CallState}
    {log : List (K × Obs)} (h : ∀ k', R (calls k') (ofCall log k')) (obs : List Obs) {k : K}
    {st : CallState} (hk : R st (ofCall log k ++ obs)) (k' : K) :
    R (Function.update calls k st k') (ofCall (log ++ obs.map fun o => (k, o)) k') := by
  rw [ofCall_append_map]
  by_cases hkk : k' = k
  · subst hkk
    rw [Function.update_self, if_pos rfl]
    exact hk
  · rw [Function.update_of_ne hkk, if_neg hkk]
    exact h k'

/-- The same when the call leaves no record. -/
theorem reports_update_nil {R : CallState → List Obs → Prop} {calls : K → CallState}
    {log : List (K × Obs)} (h : ∀ k', R (calls k') (ofCall log k')) {k : K} {st : CallState}
    (hk : R st (ofCall log k)) (k' : K) :
    R (Function.update calls k st k') (ofCall log k') := by
  have hupd := reports_update h [] (by rw [List.append_nil]; exact hk) k'
  rwa [List.map_nil, List.append_nil] at hupd

/-- A call that has not started has no record. -/
theorem ofCall_of_reports (h : ∀ k, (s.calls k).Reports (ofCall s.syncLog k))
    (hk : s.calls k = .notStarted) : ofCall s.syncLog k = [] := by
  have hrep := h k
  rw [hk] at hrep
  exact hrep

/-- What a synchronous publish has caused, one effect at a time. -/
theorem Effect.sync (h : Effect s s') (hr : ∀ k, (s.calls k).Reports (ofCall s.syncLog k)) :
    ∀ k, (s'.calls k).Reports (ofCall s'.syncLog k) := by
  cases h with
  | @moved k st g w obs stack locals _ _ _ _ _ _ _ _ _ _ hrep =>
      exact reports_update (R := fun st r => st.Reports r) hr obs (hrep _ (hr k))
  | workerMoved => exact hr
  | workerStarted => exact hr
  | @subscribed k call sub out hk hrep =>
      refine reports_update_nil (R := fun st r => st.Reports r) hr ?_
      rw [ofCall_of_reports hr hk]
      exact hrep
  | @detached k st a stack hk hmem hst =>
      refine reports_update_nil (R := fun st r => st.Reports r) hr ?_
      rw [ofCall_of_reports hr hk]
      rcases hst with rfl | ⟨rfl, -⟩
      · rfl
      · rfl
  | @published k g stack event hk habi =>
      refine reports_update (R := fun st r => st.Reports r) hr
        [.accepted event (s.globals.matching event.id)] ?_
      rw [ofCall_of_reports hr hk]
      refine ⟨fun h => absurd rfl h, habi, s.globals.matching event.id, rfl, ?_, ?_, rfl⟩
      · exact List.nil_append _
      · exact Nat.zero_add _
  | @accepted k call g event works hk hrep =>
      refine reports_update_nil (R := fun st r => st.Reports r) hr ?_
      rw [ofCall_of_reports hr hk]
      exact hrep
  | taken => exact hr
  | @callFinished k d firstErr a rest heap locals hk hphase hpending =>
      refine reports_update_nil (R := fun st r => st.Reports r) hr ?_
      have hrep := hr k
      rw [hk] at hrep
      obtain ⟨-, habi, subscribers, haccepts, hstarts, hresults, herr⟩ := hrep
      simp only [Delivery.toStart, Delivery.toReturn, hphase, hpending, reduceCtorEq, or_self,
        if_false, List.tail_cons] at hstarts hresults
      exact ⟨fun h => absurd rfl h, habi, subscribers, haccepts, hstarts, hresults, herr⟩
  | workerFinished => exact hr
  | @freed k a stack hk =>
      refine reports_update_nil (R := fun st r => st.Reports r) hr ?_
      have hrep := hr k
      rw [hk] at hrep
      exact hrep
  | @stopped k stack hk =>
      refine reports_update_nil (R := fun st r => st.Reports r) hr ?_
      have hrep := hr k
      rw [hk] at hrep
      exact hrep

/-- For what an asynchronous publish was accepted, one effect at a time. -/
theorem Effect.async (h : Effect s s')
    (hr : ∀ k, (s.calls k).AsyncReports (accepts (ofCall s.asyncLog k))) :
    ∀ k, (s'.calls k).AsyncReports (accepts (ofCall s'.asyncLog k)) := by
  have hnew : ∀ {k}, s.calls k = .notStarted → accepts (ofCall s.asyncLog k) = [] := by
    intro k hk
    have hrep := hr k
    rw [hk] at hrep
    exact hrep
  cases h with
  | @moved k st g w obs stack locals _ _ _ _ _ _ _ _ _ _ _ hasync =>
      exact reports_update_nil (R := fun st r => st.AsyncReports (accepts r)) hr (hasync _ (hr k))
  | workerMoved => exact hr
  | @workerStarted k d a rest locals hw =>
      intro k'
      have hsame : accepts (ofCall (s.asyncLog ++ [(k, .started d.event a)]) k') =
          accepts (ofCall s.asyncLog k') := by
        rw [ofCall_append, accepts_append]
        by_cases hkk : k = k'
        · subst hkk
          rw [ofCall_cons_self]
          exact List.append_nil _
        · rw [ofCall_cons_of_ne hkk]
          exact List.append_nil _
      dsimp only
      rw [hsame]
      exact hr k'
  | @subscribed k call sub out hk hrep hasync =>
      refine reports_update_nil (R := fun st r => st.AsyncReports (accepts r)) hr ?_
      rw [hnew hk]
      exact hasync
  | @detached k st a stack hk hmem hst =>
      refine reports_update_nil (R := fun st r => st.AsyncReports (accepts r)) hr ?_
      rw [hnew hk]
      rcases hst with rfl | ⟨rfl, -⟩
      · rfl
      · rfl
  | @published k g stack event hk =>
      exact reports_update_nil (R := fun st r => st.AsyncReports (accepts r)) hr (hnew hk)
  | @accepted k call g event works hk hrep hasync =>
      refine reports_update (R := fun st r => st.AsyncReports (accepts r)) hr
        [.accepted event (s.globals.matching event.id)] ?_
      rw [accepts_append, hnew hk]
      exact hasync
  | taken => exact hr
  | @callFinished k d firstErr a rest heap locals hk =>
      refine reports_update_nil (R := fun st r => st.AsyncReports (accepts r)) hr ?_
      have hrep := hr k
      rw [hk] at hrep
      exact hrep
  | workerFinished => exact hr
  | @freed k a stack hk =>
      refine reports_update_nil (R := fun st r => st.AsyncReports (accepts r)) hr ?_
      have hrep := hr k
      rw [hk] at hrep
      exact hrep
  | @stopped k stack hk =>
      refine reports_update_nil (R := fun st r => st.AsyncReports (accepts r)) hr ?_
      have hrep := hr k
      rw [hk] at hrep
      exact hrep

theorem Effect.delivered (h : Effect s s') (hd : s.Delivered) : s'.Delivered :=
  ⟨h.order hd.order, h.async hd.async, h.sync hd.sync⟩

omit [DecidableEq K] in
/-- Logs that have not grown. -/
theorem AcceptsMatching.of_same (hsync : s'.syncLog = s.syncLog)
    (hasync : s'.asyncLog = s.asyncLog) : AcceptsMatching s s' :=
  ⟨[], [], hsync.trans (List.append_nil _).symm, hasync.trans (List.append_nil _).symm,
    fun _ _ _ h => nomatch h⟩

theorem Effect.acceptsMatching (h : Effect s s') : AcceptsMatching s s' := by
  cases h with
  | @moved k st g w obs stack locals _ _ _ _ _ _ _ _ _ hobs =>
      refine ⟨obs.map fun o => (k, o), [], rfl, (List.append_nil _).symm,
        fun k' event subscribers hmem => ?_⟩
      rw [List.append_nil] at hmem
      obtain ⟨o, ho, heq⟩ := List.mem_map.mp hmem
      obtain rfl : o = .accepted event subscribers := congrArg Prod.snd heq
      exact absurd ho (not_mem_of_accepts hobs event subscribers)
  | workerMoved => exact AcceptsMatching.of_same rfl rfl
  | @workerStarted k d a rest locals =>
      refine ⟨[], _, (List.append_nil _).symm, rfl, fun k' event subscribers hmem => ?_⟩
      have heq := List.mem_singleton.mp hmem
      cases heq
  | subscribed => exact AcceptsMatching.of_same rfl rfl
  | detached => exact AcceptsMatching.of_same rfl rfl
  | published event =>
      refine ⟨_, [], rfl, (List.append_nil _).symm, fun k' event' subscribers hmem => ?_⟩
      have heq := List.mem_singleton.mp hmem
      cases heq
      rfl
  | accepted event =>
      refine ⟨[], _, (List.append_nil _).symm, rfl, fun k' event' subscribers hmem => ?_⟩
      have heq := List.mem_singleton.mp hmem
      cases heq
      rfl
  | taken => exact AcceptsMatching.of_same rfl rfl
  | callFinished => exact AcceptsMatching.of_same rfl rfl
  | workerFinished => exact AcceptsMatching.of_same rfl rfl
  | freed => exact AcceptsMatching.of_same rfl rfl
  | stopped => exact AcceptsMatching.of_same rfl rfl

/-! ## Stopping -/

/-- The call that an update has brought to a state it was not in. -/
theorem of_update_eq {calls : K → CallState} {st x : CallState} {k k' : K}
    (h : Function.update calls k st k' = x) (hne : calls k' ≠ x) : k' = k ∧ st = x := by
  by_cases hkk : k' = k
  · subst hkk
    rw [Function.update_self] at h
    exact ⟨rfl, h⟩
  · rw [Function.update_of_ne hkk] at h
    exact absurd h hne

/-- The join finds a worker that has left its loop. -/
theorem Effect.joined (h : Effect s s') (hk : s.calls k = .stopJoin)
    (hk' : s'.calls k = .stopWait) : s.worker = .exited := by
  have hne : s.calls k ≠ .stopWait := by
    rw [hk]
    exact fun h => nomatch h
  cases h with
  | moved _ _ _ _ _ _ _ _ hjoin => exact hjoin (of_update_eq hk' hne).2
  | workerMoved => exact absurd hk' hne
  | workerStarted => exact absurd hk' hne
  | subscribed => cases (of_update_eq hk' hne).2
  | detached hk₀ hmem hst =>
      obtain ⟨-, rfl⟩ := of_update_eq hk' hne
      rcases hst with hst | ⟨hst, -⟩
      · cases hst
      · cases hst
  | published => cases (of_update_eq hk' hne).2
  | accepted => cases (of_update_eq hk' hne).2
  | taken => exact absurd hk' hne
  | callFinished => cases (of_update_eq hk' hne).2
  | workerFinished => exact absurd hk' hne
  | freed => cases (of_update_eq hk' hne).2
  | stopped => cases (of_update_eq hk' hne).2

/-- A bus that accepts nothing and has delivered everything leaves no new record. -/
theorem Effect.asyncLog_of_closed (h : Effect s s') (hacc : s.globals.accepting = false)
    (hdone : s.worker.toStart = []) : s'.asyncLog = s.asyncLog := by
  cases h with
  | moved => rfl
  | workerMoved => rfl
  | workerStarted hw hphase hpending =>
      rw [hw] at hdone
      simp [WorkerLoop.toStart, Delivery.toStart, hphase, hpending] at hdone
  | subscribed => rfl
  | detached => rfl
  | published => rfl
  | accepted _ _ _ _ _ _ _ htrue =>
      rw [hacc] at htrue
      cases htrue
  | taken => rfl
  | callFinished => rfl
  | workerFinished => rfl
  | freed => rfl
  | stopped => rfl

/-! ## Runs -/

theorem Bus.zero_delivered : (Bus.zero Tid K).Delivered :=
  ⟨rfl, fun _ => rfl, fun _ => rfl⟩

theorem asyncPayload_firstBytes {data : Option (List UInt8)} {size : Nat}
    (hdata : size > 0 → data ≠ none) : FirstBytes data size (asyncPayload data size) := by
  by_cases hsize : size > 0
  · obtain ⟨bytes, rfl⟩ := Option.ne_none_iff_exists'.mp (hdata hsize)
    exact Or.inr ⟨bytes, hsize, rfl, if_pos hsize⟩
  · exact Or.inl ⟨Nat.eq_zero_of_not_pos hsize, if_neg hsize⟩

theorem Bus.Delivered.exactlyOnce (h : s.Delivered) : s.ExactlyOnce := by
  have hcall : ∀ k, starts (ofCall s.asyncLog k) <+:
      (accepts (ofCall s.asyncLog k)).flatMap fun x => x.2.map fun a => (x.1, a) := by
    intro k
    refine ⟨ofCall (s.worker.toStart ++ s.globals.queued.flatMap Work.toStart) k, ?_⟩
    rw [starts_ofCall, ← ofCall_append, ← List.append_assoc, h.order, ofCall_expected]
  refine ⟨h.order, fun k eventId data size memory out hk => ?_,
    fun k eventId data size memory ret out hk hret => ?_, fun k eventId data size ret out hk => ?_⟩
  · have hrep := h.async k
    rw [hk] at hrep
    rcases hrep with ⟨-, hdata, subscribers, haccepts⟩ | ⟨hne, -⟩
    · have hprefix := hcall k
      rw [haccepts, List.flatMap_singleton] at hprefix
      exact ⟨_, subscribers, rfl, rfl, rfl, asyncPayload_firstBytes hdata, haccepts, hprefix⟩
    · exact absurd rfl hne
  · have hrep := h.async k
    rw [hk] at hrep
    rcases hrep with ⟨hok, -⟩ | ⟨-, hnone⟩
    · exact absurd hok hret
    · have hprefix := hcall k
      rw [hnone] at hprefix
      exact ⟨hnone, List.prefix_nil.mp hprefix⟩
  · have hrep := h.sync k
    rw [hk] at hrep
    rcases hrep with ⟨subscribers, hreports⟩ | hrefused
    · exact Or.inl ⟨_, subscribers, rfl, rfl, rfl, rfl, hreports⟩
    · exact Or.inr hrefused

variable [DecidableEq Tid] {e : Action Tid K} {es : List (Action Tid K)} {t : Bus Tid K}

theorem delivered_of_reachable (h : (eventMachine Tid K).Reachable s) :
    s.Sound ∧ s.Delivered := by
  refine h.invariant (I := fun s => s.Sound ∧ s.Delivered) (fun s hs => ?_)
    fun u e v hu hstep => ?_
  · obtain rfl : s = Bus.zero Tid K := hs
    exact ⟨Bus.zero_sound, Bus.zero_delivered⟩
  · have heff := step_effect hu.1 hstep
    exact ⟨heff.sound hu.1, heff.delivered hu.2⟩

/-- A log only grows. -/
theorem run_asyncLog (hs : s.Sound) (h : (eventMachine Tid K).Run s es t) :
    ∃ l, t.asyncLog = s.asyncLog ++ l := by
  have hinv : t.Sound ∧ ∃ l, t.asyncLog = s.asyncLog ++ l := by
    refine h.invariant (I := fun t => t.Sound ∧ ∃ l, t.asyncLog = s.asyncLog ++ l)
      (fun u e v hu hstep => ?_) ⟨hs, [], (List.append_nil _).symm⟩
    obtain ⟨hsound, l, hl⟩ := hu
    have heff := step_effect hsound hstep
    obtain ⟨syncNew, asyncNew, -, hnew, -⟩ := heff.acceptsMatching
    exact ⟨heff.sound hsound, l ++ asyncNew, by rw [hnew, hl, List.append_assoc]⟩
  exact hinv.2

/-- Until the next start, a bus that is closed and has delivered everything leaves no record. -/
theorem run_closed (hs : s.Sound) (hd : s.Delivered) (hacc : s.globals.accepting = false)
    (hdone : startedAll s.asyncLog = expected s.asyncLog)
    (h : (eventMachine Tid K).Run s es t) (hstart : ∀ t k, Action.call t k .start ∉ es) :
    t.asyncLog = s.asyncLog := by
  have hinv : (∀ t k, Action.call t k .start ∉ es) → t.Sound ∧ t.Delivered ∧
      t.globals.accepting = false ∧ t.asyncLog = s.asyncLog := by
    refine h.history (R := fun es t => (∀ t k, Action.call t k .start ∉ es) → t.Sound ∧
      t.Delivered ∧ t.globals.accepting = false ∧ t.asyncLog = s.asyncLog)
      (fun _ => ⟨hs, hd, hacc, rfl⟩) fun es u e v _ hu hstep hstart => ?_
    obtain ⟨hsound, hdel, hclosed, hlog⟩ :=
      hu fun t k hmem => hstart t k (List.mem_append_left _ hmem)
    have heff := step_effect hsound hstep
    -- what was started is what is expected, so the worker has nothing to start
    have hidle : u.worker.toStart = [] := by
      have horder := hdel.order
      rw [hlog, ← hdone, List.append_assoc] at horder
      exact (List.append_eq_nil_iff.mp (List.append_right_eq_self.mp horder)).1
    refine ⟨heff.sound hsound, heff.delivered hdel, ?_,
      (heff.asyncLog_of_closed hclosed hidle).trans hlog⟩
    by_contra hopen
    rcases next_accepting hstep.1 (eq_true_of_ne_false hopen) with htrue | ⟨t, k, rfl⟩
    · exact absurd (hclosed.symm.trans htrue) Bool.false_ne_true
    · exact hstart t k (List.mem_append_right _ (List.mem_singleton_self _))
  exact (hinv hstart).2.2.2

/-- A start does not join. -/
theorem start_ne_stopWait {T : Thread Tid} {k k' : K} (h : begin s T k .start = some s')
    (hk' : s.calls k' ≠ .stopWait) : s'.calls k' ≠ .stopWait := by
  intro hwait
  cases begin_cases h with
  | startRefused _ => cases (of_update_eq hwait hk').2
  | started _ => cases (of_update_eq hwait hk').2

/-- Events are delivered once and in order; all of them have been when the worker is joined, and
    until the next start no other is accepted. -/
theorem event_delivery (h : (eventMachine Tid K).Reachable s) :
    s.ExactlyOnce ∧ (∀ e s', (eventMachine Tid K).step s e s' → AcceptsMatching s s') ∧
      ∀ k e s', (eventMachine Tid K).step s e s' → s.calls k = .stopJoin →
        s'.calls k = .stopWait →
        s.worker = .exited ∧ startedAll s'.asyncLog = expected s'.asyncLog ∧
          ∀ es t, (eventMachine Tid K).Run s' es t → ∃ l, t.asyncLog = s'.asyncLog ++ l ∧
            ((∀ t k, Action.call t k .start ∉ es) → l = []) := by
  obtain ⟨hs, hd⟩ := delivered_of_reachable h
  refine ⟨hd.exactlyOnce, fun e s' hstep => (step_effect hs hstep).acceptsMatching,
    fun k e s' hstep hk hk' => ?_⟩
  have heff := step_effect hs hstep
  have hworker := heff.joined hk hk'
  obtain ⟨hrun, hqueued⟩ := hs.shaped.flagged.exited hworker
  have hclosed : s.globals.accepting = false := by
    by_contra hopen
    have htrue := hs.shaped.flagged.accepting (eq_true_of_ne_false hopen)
    exact absurd (hrun.symm.trans htrue) Bool.false_ne_true
  have hidle : s.worker.toStart = [] := by
    rw [hworker]
    rfl
  have hdone : startedAll s.asyncLog = expected s.asyncLog := by
    have horder := hd.order
    rw [hidle, hqueued] at horder
    simpa using horder
  have hlog := heff.asyncLog_of_closed hclosed hidle
  have hclosed' : s'.globals.accepting = false := by
    by_contra hopen
    rcases next_accepting hstep.1 (eq_true_of_ne_false hopen) with htrue | ⟨T, k₂, rfl⟩
    · exact absurd (hclosed.symm.trans htrue) Bool.false_ne_true
    · have hbegin : next s (.call T k₂ .start) = some s' := hstep.1
      simp only [next] at hbegin
      split at hbegin
      · exact start_ne_stopWait hbegin (by simp [hk]) hk'
      · cases hbegin
  have hdone' : startedAll s'.asyncLog = expected s'.asyncLog := by rw [hlog, hdone]
  refine ⟨hworker, hdone', fun es t hrun => ?_⟩
  obtain ⟨l, hl⟩ := run_asyncLog (heff.sound hs) hrun
  refine ⟨l, hl, fun hstart => ?_⟩
  have hsame := run_closed (heff.sound hs) (heff.delivered hd) hclosed' hdone' hrun hstart
  rw [hl] at hsame
  exact List.append_right_eq_self.mp hsame

/-- One asynchronous event with two bytes of three, delivered before the worker is joined. -/
theorem event_delivery_joined :
    ∃ s s' : Bus Unit (Fin 4), s.ExactlyOnce ∧ s.calls 3 = .stopJoin ∧
      s'.calls 3 = .stopWait ∧ startedAll s'.asyncLog = [(2, ⟨7, 1, some [97, 98], 2⟩, 1)] ∧
      startedAll s'.asyncLog = expected s'.asyncLog := by
  have hidle : (Bus.zero Unit (Fin 4)).Idle :=
    ⟨rfl, rfl, fun k => ⟨fun h => (nomatch h), fun h => nomatch h⟩, rfl, rfl⟩
  have hallowed : Machine.Along next StartsIdle (Bus.zero Unit (Fin 4))
      [.call (.caller ()) 0 .start, .threadCreate (.caller ()) .ok, .proceed (.caller ()),
        .call (.caller ()) 1 (.subscribe 7 5 0 true true),
        .call (.caller ()) 2 (.publishAsync 7 (some [97, 98, 99]) 2 true), .call (.caller ()) 3 .stop,
        .proceed .worker, .proceed .worker, .callbackReturn .worker .io, .proceed .worker,
        .proceed .worker, .proceed .worker, .proceed .worker] :=
    ⟨Or.inr hidle, fun _ _ => ⟨trivial, fun _ _ => ⟨trivial, fun _ _ => ⟨trivial, fun _ _ =>
      ⟨trivial, fun _ _ => ⟨trivial, fun _ _ => ⟨trivial, fun _ _ => ⟨trivial, fun _ _ =>
      ⟨trivial, fun _ _ => ⟨trivial, fun _ _ => ⟨trivial, fun _ _ => ⟨trivial, fun _ _ =>
      ⟨trivial, fun _ _ => trivial⟩⟩⟩⟩⟩⟩⟩⟩⟩⟩⟩⟩⟩
  have hexec : ∃ s s', Machine.exec next (Bus.zero Unit (Fin 4))
      [.call (.caller ()) 0 .start, .threadCreate (.caller ()) .ok, .proceed (.caller ()),
        .call (.caller ()) 1 (.subscribe 7 5 0 true true),
        .call (.caller ()) 2 (.publishAsync 7 (some [97, 98, 99]) 2 true), .call (.caller ()) 3 .stop,
        .proceed .worker, .proceed .worker, .callbackReturn .worker .io, .proceed .worker,
        .proceed .worker, .proceed .worker, .proceed .worker] = some s ∧
      next s (.join (.caller ()) 0) = some s' ∧ s.calls 3 = .stopJoin ∧
      s'.calls 3 = .stopWait ∧ startedAll s'.asyncLog = [(2, ⟨7, 1, some [97, 98], 2⟩, 1)] :=
    ⟨_, _, rfl, rfl, rfl, rfl, rfl⟩
  obtain ⟨s, s', hexec, hstep, hcall, hcall', hstarted⟩ := hexec
  have hreach : (eventMachine Unit (Fin 4)).Reachable s :=
    ⟨_, _, rfl, Machine.Run.of_exec_along hexec hallowed⟩
  obtain ⟨honce, -, hjoin⟩ := event_delivery hreach
  obtain ⟨-, hdone, -⟩ := hjoin 3 _ s' ⟨hstep, trivial⟩ hcall hcall'
  exact ⟨s, s', honce, hcall, hcall', hstarted, hdone⟩

end Event
end AppCore
