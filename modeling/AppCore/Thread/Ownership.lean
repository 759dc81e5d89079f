/-
  AppCore.Thread.Ownership

  Who frees a `struct sys_thread`.  In every run the object of a thread has one owner: the call
  that creates it, then its thread, then the call that has joined the thread.
-/

import AppCore.Thread.System

namespace AppCore
namespace Thread

open Custody (Holds Role)

variable {T E : Type*} {P : Platform} {s s' : Threads T E}

/-! ## What the objects, the threads and the calls show -/

/-- Whether an object exists, and the handle in it. -/
def Threads.handleAt (s : Threads T E) (thread : Nat) : Option (Option Nat) :=
  (s.objects thread).map SysThread.handle

/-- The object that a thread uses. -/
def Threads.argumentAt (s : Threads T E) (pthread : Nat) : Option Nat :=
  (s.pthreads pthread).map Pthread.argument

def Threads.roleOf (s : Threads T E) (c : Caller T) : Role Nat :=
  (s.calls c).role

section Updates

variable [DecidableEq T] {thread pthread : Nat} {t : Option (SysThread E)} {q : Option Pthread}
  {c : Caller T} {st : CallState}

omit [DecidableEq T] in
@[simp] theorem handleAt_setObject :
    (s.setObject thread t).handleAt =
      Function.update s.handleAt thread (t.map SysThread.handle) := by
  funext thread'
  simp only [Threads.handleAt, Threads.setObject, Function.update_apply]
  split
  · rfl
  · rfl

omit [DecidableEq T] in
@[simp] theorem argumentAt_setPthread :
    (s.setPthread pthread q).argumentAt =
      Function.update s.argumentAt pthread (q.map Pthread.argument) := by
  funext pthread'
  simp only [Threads.argumentAt, Threads.setPthread, Function.update_apply]
  split
  · rfl
  · rfl

@[simp] theorem roleOf_setCall :
    (s.setCall c st).roleOf = Function.update s.roleOf c st.role := by
  funext c'
  simp only [Threads.roleOf, Threads.setCall, Function.update_apply]
  split
  · rfl
  · rfl

omit [DecidableEq T] in
@[simp] theorem handleAt_setPthread : (s.setPthread pthread q).handleAt = s.handleAt := rfl

@[simp] theorem handleAt_setCall : (s.setCall c st).handleAt = s.handleAt := rfl

omit [DecidableEq T] in
@[simp] theorem argumentAt_setObject : (s.setObject thread t).argumentAt = s.argumentAt := rfl

@[simp] theorem argumentAt_setCall : (s.setCall c st).argumentAt = s.argumentAt := rfl

omit [DecidableEq T] in
@[simp] theorem roleOf_setObject : (s.setObject thread t).roleOf = s.roleOf := rfl

omit [DecidableEq T] in
@[simp] theorem roleOf_setPthread : (s.setPthread pthread q).roleOf = s.roleOf := rfl

/-- A section of a call that does not change what the call is doing with an object. -/
theorem roleOf_setCall_of_eq (h : st.role = s.roleOf c) : (s.setCall c st).roleOf = s.roleOf := by
  rw [roleOf_setCall, h, Function.update_eq_self]

end Updates

/-! ## The owners -/

/-- Every object has the owner that the calls and the threads say. -/
def Threads.Owned (s : Threads T E) : Prop :=
  ∃ owner, Holds s.handleAt s.argumentAt s.roleOf owner

omit s' in
theorem fresh_owned (h : s.Fresh) : s.Owned := by
  refine ⟨fun _ => .nobody, ?_⟩
  have hhandle : s.handleAt = fun _ => none := by
    funext thread
    rw [Threads.handleAt, h.objects]
    rfl
  have hargument : s.argumentAt = fun _ => none := by
    funext pthread
    rw [Threads.argumentAt, h.pthreads]
    rfl
  have hrole : s.roleOf = fun _ => .none := by
    funext c
    rw [Threads.roleOf, h.calls]
    rfl
  rw [hhandle, hargument, hrole]
  exact Holds.empty

/-- Two states that show the same have the same owners. -/
theorem Threads.Owned.congr (h : s.Owned) (hhandle : s'.handleAt = s.handleAt)
    (hargument : s'.argumentAt = s.argumentAt) (hrole : s'.roleOf = s.roleOf) : s'.Owned := by
  obtain ⟨owner, hold⟩ := h
  refine ⟨owner, ?_⟩
  rw [hhandle, hargument, hrole]
  exact hold

section Sections

variable {pthread : Nat} {q : Pthread}

/-- The trampoline of a thread goes on. -/
theorem Threads.Owned.goOn (h : s.Owned) (hq : s.pthreads pthread = some q) (b : Trampoline) :
    (s.setPthread pthread (some { q with point := b })).Owned := by
  refine h.congr rfl ?_ rfl
  have hargument : s.argumentAt pthread = some q.argument := by
    rw [Threads.argumentAt, hq]
    rfl
  rw [argumentAt_setPthread, Option.map_some, ← hargument, Function.update_eq_self]

theorem stop_owned {thread : Option Nat} (h : s.Owned) :
    (sysThreadRequestStop s thread).Owned := by
  cases thread with
  | none => exact h
  | some thread =>
      refine h.congr ?_ rfl rfl
      have hsame : ((s.objects thread).map fun t => { t with stopRequested := true }).map
          SysThread.handle = s.handleAt thread := by
        rw [Option.map_map]
        rfl
      simp only [sysThreadRequestStop, handleAt_setObject, hsame, Function.update_eq_self]

variable [DecidableEq T] {c : Caller T} {thread : Nat} {st : CallState} {t : SysThread E}

/-- A section of a call that leaves it with the same object, or without one as before. -/
theorem Threads.Owned.keep (h : s.Owned) (hst : st.role = s.roleOf c) :
    (s.setCall c st).Owned :=
  h.congr rfl rfl (roleOf_setCall_of_eq hst)

theorem allocated_owned (h : s.Owned) (hrole : s.roleOf c = .none)
    (hfree : s.objects thread = none) (ht : t.handle = none) (hst : st.role = .makes thread) :
    ((s.setObject thread (some t)).setCall c st).Owned := by
  obtain ⟨owner, hold⟩ := h
  have hhandle : s.handleAt thread = none := congrArg (Option.map SysThread.handle) hfree
  refine ⟨Function.update owner thread (.maker c), ?_⟩
  rw [handleAt_setCall, handleAt_setObject, roleOf_setCall, Option.map_some, ht, hst]
  exact hold.make hhandle hrole

theorem spawned_owned (h : s.Owned) (hrole : s.roleOf c = .makes thread)
    (hfree : s.pthreads pthread = none) (ht : t.handle = some pthread)
    (hst : st.role = .none) :
    (((s.setObject thread (some t)).setPthread pthread
      (some { argument := thread })).setCall c st).Owned := by
  obtain ⟨owner, hold⟩ := h
  have hargument : s.argumentAt pthread = none := congrArg (Option.map Pthread.argument) hfree
  refine ⟨Function.update owner thread (.worker pthread), ?_⟩
  rw [handleAt_setCall, handleAt_setPthread, handleAt_setObject, argumentAt_setCall,
    argumentAt_setPthread, roleOf_setCall, Option.map_some, ht, hst]
  exact hold.start hrole hargument

theorem joins_owned (h : s.Owned) (hrole : s.roleOf c = .none) (hjoinable : s.Joinable thread)
    (hst : st.role = .joins thread) : (s.setCall c st).Owned := by
  obtain ⟨owner, hold⟩ := h
  obtain ⟨⟨t, p, ht, hp⟩, hlone⟩ := hjoinable
  have hhandle : s.handleAt thread = some (some p) := by
    rw [Threads.handleAt, ht, Option.map_some, hp]
  refine ⟨owner, ?_⟩
  rw [roleOf_setCall, hst]
  exact hold.join hrole hhandle (fun c => (hlone c).2) fun c => (hlone c).1

theorem joined_owned (h : s.Owned) (hrole : s.roleOf c = .joins thread)
    (ht : s.objects thread = some t) (hp : t.handle = some pthread)
    (hst : st.role = .reaps thread) : ((s.setPthread pthread none).setCall c st).Owned := by
  obtain ⟨owner, hold⟩ := h
  have hhandle : s.handleAt thread = some (some pthread) := by
    rw [Threads.handleAt, ht, Option.map_some, hp]
  refine ⟨Function.update owner thread (.reaper c pthread), ?_⟩
  rw [argumentAt_setCall, argumentAt_setPthread, roleOf_setCall, hst]
  exact hold.reap hrole hhandle

/-- The wait of a join ends, and the thread goes on. -/
theorem quit_owned (h : s.Owned) (hrole : s.roleOf c = .joins thread) (hst : st.role = .none) :
    (s.setCall c st).Owned := by
  obtain ⟨owner, hold⟩ := h
  refine ⟨owner, ?_⟩
  rw [roleOf_setCall, hst]
  exact hold.quit hrole

/-- `free`, by the call that made the object or by the one that has joined its thread. -/
theorem freed_owned (h : s.Owned) (hrole : s.roleOf c = .makes thread ∨ s.roleOf c = .reaps thread)
    (hst : st.role = .none) : ((s.setObject thread none).setCall c st).Owned := by
  obtain ⟨owner, hold⟩ := h
  refine ⟨Function.update owner thread .nobody, ?_⟩
  rw [handleAt_setCall, handleAt_setObject, roleOf_setCall, hst]
  rcases hrole with hmakes | hreaps
  · exact hold.abandon hmakes
  · exact hold.free hreaps

end Sections

/-! ## Every run -/

variable [DecidableEq T]

theorem step_owned {e : Event T E} (h : ThreadStep P s e s') (hcontract : Contract s e)
    (hs : s.Owned) : s'.Owned := by
  have hrole : ∀ {c : Caller T} {st : CallState}, s.calls c = st → s.roleOf c = st.role := by
    intro c st hc
    rw [Threads.roleOf, hc]
  cases h with
  | refused hc _ => exact hs.keep (hrole hc).symm
  | allocated hc _ _ hfree => exact allocated_owned hs (hrole hc) hfree rfl rfl
  | spawnFailed hc _ => exact hs.keep (hrole hc).symm
  | spawned hc hfree _ => exact spawned_owned hs (hrole hc) hfree rfl rfl
  | stopRequested _ => exact stop_owned hs
  | joinRefused hc _ => exact hs.keep (hrole hc).symm
  | joins hc _ _ _ => exact joins_owned hs (hrole hc) hcontract rfl
  | joinFailed hc _ => exact quit_owned hs (hrole hc) rfl
  | joined hc ht hp _ _ => exact joined_owned hs (hrole hc) ht hp rfl
  | counted hc => exact hs.keep (hrole hc).symm
  | uncounted hc => exact hs.keep (hrole hc).symm
  | undone hc => exact hs.keep (hrole hc).symm
  | freed hc => exact freed_owned hs (Or.inl (hrole hc)) rfl
  | released hc => exact freed_owned hs (Or.inr (hrole hc)) rfl
  | reported hc => exact hs.keep (hrole hc).symm
  | done hc => exact hs.keep (hrole hc).symm
  | entered hq _ => exact hs.goOn hq .running
  | left _ hq _ => exact hs.goOn hq .returning
  | finished hq _ => exact hs.goOn hq .ended

theorem owned_of_reachable (h : (threadMachine T E P).Reachable s) : s.Owned := by
  apply h.invariant
  · intro s hfresh
    exact fresh_owned hfresh
  · intro s e s' hs hstep
    exact step_owned (next_cases hstep.1) hstep.2 hs

/-- Who frees an object, or will: the call that creates it, the thread that uses it, or the
    call that has joined that thread. -/
inductive Owner (T : Type*) where
  | creator (c : Caller T)
  | thread (pthread : Nat)
  | joiner (c : Caller T)
deriving DecidableEq, Repr

/-- Read off the calls and the threads. -/
def Threads.Owns (s : Threads T E) (thread : Nat) : Owner T → Prop
  | .creator c => s.roleOf c = .makes thread
  | .thread p => s.argumentAt p = some thread
  | .joiner c => s.calls c = .joined thread

omit [DecidableEq T] in
theorem role_eq_reaps {st : CallState} {thread : Nat} :
    st.role = .reaps thread ↔ st = .joined thread := by
  cases st <;> simp [CallState.role]

/-- In every run, an object exists exactly as long as it has an owner, and it never has two:
    no thread uses an object that has been freed, no object is freed twice, and none is
    forgotten.  The handle in it is that of the thread that uses it. -/
theorem object_has_one_owner (h : (threadMachine T E P).Reachable s) (thread : Nat) :
    (s.objects thread ≠ none ↔ ∃ o, s.Owns thread o) ∧
      (∀ o o', s.Owns thread o → s.Owns thread o' → o = o') ∧
      ∀ p, s.Owns thread (.thread p) → ∃ t, s.objects thread = some t ∧ t.handle = some p := by
  obtain ⟨owner, hold⟩ := owned_of_reachable h
  have hcreator : ∀ c, s.Owns thread (.creator c) ↔ owner thread = .maker c :=
    fun c => hold.maker c thread
  have hthread : ∀ p, s.Owns thread (.thread p) ↔ owner thread = .worker p :=
    fun p => hold.worker p thread
  have hjoiner : ∀ c, s.Owns thread (.joiner c) ↔ ∃ p, owner thread = .reaper c p :=
    fun c => role_eq_reaps.symm.trans (hold.reaper c thread)
  have hobject : s.objects thread = none ↔ owner thread = .nobody := by
    constructor
    · intro hnone
      exact hold.nobody_of_handle (congrArg (Option.map SysThread.handle) hnone)
    · intro hnobody
      have hhandle := hold.handle_eq thread
      rw [hnobody] at hhandle
      exact Option.map_eq_none_iff.mp hhandle
  refine ⟨?_, ?_, ?_⟩
  · rw [ne_eq, hobject]
    constructor
    · intro howner
      cases ho : owner thread with
      | nobody => exact absurd ho howner
      | maker c => exact ⟨_, (hcreator c).mpr ho⟩
      | worker p => exact ⟨_, (hthread p).mpr ho⟩
      | reaper c p => exact ⟨_, (hjoiner c).mpr ⟨p, ho⟩⟩
    · rintro ⟨o, ho⟩ hnobody
      cases o with
      | creator c =>
          rw [hcreator, hnobody] at ho
          cases ho
      | thread p =>
          rw [hthread, hnobody] at ho
          cases ho
      | joiner c =>
          rw [hjoiner, hnobody] at ho
          obtain ⟨_, ho⟩ := ho
          cases ho
  · intro o o' ho ho'
    cases o with
    | creator c =>
        rw [hcreator] at ho
        cases o' <;> simp_all
    | thread p =>
        rw [hthread] at ho
        cases o' <;> simp_all
    | joiner c =>
        rw [hjoiner] at ho
        obtain ⟨_, ho⟩ := ho
        cases o' <;> simp_all
  · intro p hp
    have hhandle := hold.handle_of_argument hp
    obtain ⟨t, ht, hp⟩ := Option.map_eq_some_iff.mp hhandle
    exact ⟨t, ht, hp⟩

/-! ## The stop request -/

section Stop

variable {thread : Nat} {e : Event T E}

omit [DecidableEq T] in
/-- A write to one object leaves the others alone. -/
theorem objects_setObject (s : Threads T E) (thread thread' : Nat) (t : Option (SysThread E)) :
    (s.setObject thread t).objects thread' = if thread' = thread then t else s.objects thread' :=
  Function.update_apply ..

omit [DecidableEq T] in
theorem stopRequested_requestStop (thread' : Option Nat)
    (hs : sysThreadStopRequested (s.objects thread) = true) :
    sysThreadStopRequested ((sysThreadRequestStop s thread').objects thread) = true := by
  cases thread' with
  | none => exact hs
  | some thread' =>
      rw [sysThreadRequestStop, objects_setObject]
      split
      · cases s.objects thread' <;> rfl
      · exact hs

/-- Only a new object has no request. -/
theorem step_stopRequested (h : ThreadStep P s e s')
    (hs : sysThreadStopRequested (s.objects thread) = true)
    (hs' : sysThreadStopRequested (s'.objects thread) ≠ true) :
    s.objects thread = none ∧ ∃ c name entry, e = .create c name entry true (some thread) := by
  have hfree : ∀ {thread'},
      sysThreadStopRequested ((s.setObject thread' none).objects thread) = true := by
    intro thread'
    rw [objects_setObject]
    split
    · rfl
    · exact hs
  cases h with
  | @allocated c name entry thread' _ _ _ hnone =>
      have hobject := objects_setObject s thread' thread (some { entry := entry, name := name })
      by_cases hthread : thread = thread'
      · rw [hthread]
        exact ⟨hnone, c, some name, some entry, rfl⟩
      · rw [if_neg hthread] at hobject
        exact absurd ((congrArg sysThreadStopRequested hobject).trans hs) hs'
  | @spawned c pthread thread' t hc _ ht =>
      have hobject := objects_setObject s thread' thread (some { t with handle := some pthread })
      refine absurd ((congrArg sysThreadStopRequested hobject).trans ?_) hs'
      split
      · rename_i hthread
        rw [hthread, ht] at hs
        exact hs
      · exact hs
  | stopRequested _ => exact absurd (stopRequested_requestStop _ hs) hs'
  | freed _ => exact absurd hfree hs'
  | released _ => exact absurd hfree hs'
  | _ => exact absurd hs hs'

/-- A stop request is never lost: a thread that has been told to stop reads the request as long
    as its object lives, and the flag is clear again only in an object that
    `sys_thread_create` has allocated in the same memory later. -/
theorem stop_request_stays {es : List (Event T E)} (h : (threadMachine T E P).Run s es s')
    (hs : sysThreadStopRequested (s.objects thread) = true)
    (hs' : sysThreadStopRequested (s'.objects thread) = false) :
    ∃ pre c name entry post u, es = pre ++ .create c name entry true (some thread) :: post ∧
      (threadMachine T E P).Run s pre u ∧ u.objects thread = none := by
  obtain ⟨pre, e, post, u, v, rfl, hpre, hstep, hu, hv⟩ :=
    h.exists_losing_step (P := fun s => sysThreadStopRequested (s.objects thread) = true) hs
      (by rw [hs']; decide)
  obtain ⟨hnone, c, name, entry, rfl⟩ := step_stopRequested (next_cases hstep.1) hu hv
  exact ⟨pre, c, name, entry, post, u, rfl, hpre, hnone⟩

end Stop

/-! ## One thread -/

/-- A thread is created. -/
def created : List (Event Unit Unit) :=
  [.create (.app ()) (some [119]) (some ()) true (some 0), .proceed (.app ()),
    .spawn (.app ()) 0 0, .done (.app ())]

/-- It is told to stop, enters its function and leaves it. -/
def stopped : List (Event Unit Unit) :=
  [.requestStop (.app ()) (some 0), .enter 0, .leave 0, .finish 0]

/-- Its creator joins it. -/
def joins : List (Event Unit Unit) := [.join (.app ()) (some 0) (-1), .joinReturned (.app ()) 0]

/-- The threads after the first two of these. -/
def afterStop : Option (Threads Unit Unit) :=
  (Machine.exec (next .lp64) {} created).bind fun s => Machine.exec (next .lp64) s stopped

theorem created_reachable {s : Threads Unit Unit}
    (hs : Machine.exec (next .lp64) {} created = some s) :
    (threadMachine Unit Unit .lp64).Reachable s := by
  have hfresh : Threads.Fresh ({} : Threads Unit Unit) := ⟨rfl, rfl, rfl, rfl, rfl⟩
  refine ⟨_, _, hfresh, Machine.Run.of_exec_along hs (Machine.Along.of_forall ?_)⟩
  intro e he s
  simp only [created, List.mem_cons, List.not_mem_nil, or_false] at he
  rcases he with rfl | rfl | rfl | rfl <;> trivial

/-- The creator has the handle and can send the request. -/
theorem stopped_reachable {s : Threads Unit Unit} (hs : afterStop = some s) :
    (threadMachine Unit Unit .lp64).Reachable s := by
  have hcreated : Machine.exec (next .lp64) ({} : Threads Unit Unit) created = some _ := rfl
  rw [afterStop, hcreated, Option.bind_some] at hs
  refine (created_reachable hcreated).run (Machine.Run.of_exec_along hs ⟨by rintro ⟨⟩, ?_⟩)
  exact fun t _ => ⟨trivial, fun t _ => ⟨trivial, fun t _ => ⟨trivial, fun t _ => trivial⟩⟩⟩

/-- The threads after all of them, and after `es`. -/
def afterJoin (es : List (Event Unit Unit)) : Option (Threads Unit Unit) :=
  afterStop.bind fun s => Machine.exec (next .lp64) s (joins ++ es)

/-- The creator can join the thread, since nobody else does, and go on. -/
theorem afterJoin_run {s' : Threads Unit Unit} {es : List (Event Unit Unit)}
    (hes : ∀ e ∈ es, ∀ s, Contract s e) (hs' : afterJoin es = some s') :
    ∃ s, afterStop = some s ∧ (threadMachine Unit Unit .lp64).Reachable s ∧
      (threadMachine Unit Unit .lp64).Run s (joins ++ es) s' := by
  have hstopped : afterStop = some _ := rfl
  rw [afterJoin, hstopped, Option.bind_some] at hs'
  refine ⟨_, hstopped, stopped_reachable hstopped,
    Machine.Run.of_exec_along hs' ⟨⟨⟨_, 0, rfl, rfl⟩, fun c => ?_⟩, ?_⟩⟩
  · cases c with
    | app t => exact ⟨by rintro ⟨⟩, by rintro ⟨⟩⟩
    | managed p => exact ⟨by rintro ⟨⟩, by rintro ⟨⟩⟩
  · exact fun t _ => ⟨trivial, fun t _ => Machine.Along.of_forall hes⟩

theorem afterJoin_reachable {s' : Threads Unit Unit} {es : List (Event Unit Unit)}
    (hes : ∀ e ∈ es, ∀ s, Contract s e) (hs' : afterJoin es = some s') :
    (threadMachine Unit Unit .lp64).Reachable s' := by
  obtain ⟨s, -, hreach, hrun⟩ := afterJoin_run hes hs'
  exact hreach.run hrun

/-- The owner of the object of a thread that has been joined. -/
theorem object_has_one_owner_joined :
    ∃ s : Threads Unit Unit, s.Owns 0 (.joiner (.app ())) ∧
      (s.objects 0 ≠ none ↔ ∃ o, s.Owns 0 o) ∧
      (∀ o o', s.Owns 0 o → s.Owns 0 o' → o = o') ∧
      ∀ p, s.Owns 0 (.thread p) → ∃ t, s.objects 0 = some t ∧ t.handle = some p := by
  obtain ⟨s, hs, hcall⟩ := Option.map_eq_some_iff.mp (show
    (afterJoin []).map (fun s => s.calls (.app ())) = some (.joined 0) by decide)
  exact ⟨s, hcall, object_has_one_owner (afterJoin_reachable (by simp) hs) 0⟩

/-- The object of a thread that was told to stop is freed, and its memory is used again. -/
theorem stop_request_stays_reused :
    ∃ (s : Threads Unit Unit) (es : List (Event Unit Unit)),
      sysThreadStopRequested (s.objects 0) = true ∧ ∃ pre c name entry post u,
        es = pre ++ .create c name entry true (some 0) :: post ∧
        (threadMachine Unit Unit .lp64).Run s pre u ∧ u.objects 0 = none := by
  obtain ⟨s', hs', hclear⟩ := Option.map_eq_some_iff.mp (show
    (afterJoin [.proceed (.app ()), .proceed (.app ()), .done (.app ()),
      .create (.app ()) (some [119]) (some ()) true (some 0)]).map
        (fun s => sysThreadStopRequested (s.objects 0)) = some false by decide)
  obtain ⟨s, hs, -, hrun⟩ := afterJoin_run (by simp [Contract]) hs'
  have hrequested : sysThreadStopRequested (s.objects 0) = true := by
    have hmap := congrArg (Option.map fun s => sysThreadStopRequested (s.objects 0)) hs
    exact Option.some.inj (hmap.symm.trans (by decide))
  exact ⟨s, _, hrequested, stop_request_stays hrun hrequested hclear⟩

end Thread
end AppCore
