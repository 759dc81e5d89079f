/-
  AppCore.Thread.Accounting

  The counters of active and of unjoined threads in every run, calls in the middle of a
  creation or of a join included.
-/

import AppCore.Lib.Counter
import AppCore.Lib.Holding
import AppCore.Thread.Ownership

namespace AppCore
namespace Thread

open Family (Counts)

variable {T E : Type*} {P : Platform} {s s' : Threads T E}

/-! ## What is counted -/

/-- A call that counts a thread which does not run yet, or will never run. -/
def CallState.active : CallState → Nat
  | .counted _ => 1
  | .spawning _ => 1
  | .failed _ _ => 1
  | _ => 0

/-- A call that counts a handle which nobody has yet, or has any more. -/
def CallState.unjoined : CallState → Nat
  | .spawning _ => 1
  | .failed _ _ => 1
  | .uncounting _ _ => 1
  | .freed => 1
  | _ => 0

/-- A thread that has not left its trampoline. -/
def runs (q : Option Pthread) : Nat :=
  if (q.map Pthread.point).getD .ended = .ended then 0 else 1

/-- An object with a handle. -/
def published (t : Option (SysThread E)) : Nat :=
  if (t.bind SysThread.handle).isSome then 1 else 0

theorem published_of_handle {x : SysThread E} {p : Nat} (hx : x.handle = some p) :
    published (some x) = 1 := by
  rw [published, Option.bind_some, hx]
  rfl

theorem published_of_none {x : SysThread E} (hx : x.handle = none) : published (some x) = 0 := by
  rw [published, Option.bind_some, hx]
  rfl

theorem runs_of_ended {x : Pthread} (hx : x.point = .ended) : runs (some x) = 0 := by
  rw [runs, Option.map_some, hx]
  rfl

theorem runs_of_ne {x : Pthread} (hx : x.point ≠ .ended) : runs (some x) = 1 := by
  rw [runs, Option.map_some]
  exact if_neg hx

/-- Both counters are right. -/
structure Threads.Counted (P : Platform) (s : Threads T E) : Prop where
  active : Counts (P.sizeMax + 1) s.active CallState.active s.calls runs s.pthreads
  unjoined : Counts (P.sizeMax + 1) s.unjoined CallState.unjoined s.calls published s.objects

theorem fresh_counted (h : s.Fresh) : s.Counted P := by
  have hpos : 0 < P.sizeMax + 1 := Nat.succ_pos _
  constructor
  · rw [h.active, h.calls, h.pthreads]
    exact .zero hpos (fun _ => rfl) fun _ => rfl
  · rw [h.unjoined, h.calls, h.objects]
    exact .zero hpos (fun _ => rfl) fun _ => rfl

theorem fetchAdd_lt (counter : Nat) : fetchAdd P counter < P.sizeMax + 1 :=
  Nat.mod_lt _ (Nat.succ_pos _)

theorem fetchSub_lt (counter : Nat) : fetchSub P counter < P.sizeMax + 1 :=
  Nat.mod_lt _ (Nat.succ_pos _)

theorem fetchAdd_modEq (counter : Nat) : fetchAdd P counter ≡ counter + 1 [MOD P.sizeMax + 1] :=
  Nat.mod_modEq _ _

theorem fetchSub_modEq (counter : Nat) : fetchSub P counter + 1 ≡ counter [MOD P.sizeMax + 1] := by
  have hsub : fetchSub P counter ≡ counter + P.sizeMax [MOD P.sizeMax + 1] := Nat.mod_modEq _ _
  calc fetchSub P counter + 1
    _ ≡ counter + P.sizeMax + 1 [MOD P.sizeMax + 1] := hsub.add_right 1
    _ ≡ counter [MOD P.sizeMax + 1] := by
        rw [Nat.add_assoc]
        exact Nat.add_modEq_right

section Steps

variable [DecidableEq T] {c : Caller T} {st : CallState} {thread pthread : Nat}
  {t t' : Option (SysThread E)} {q q' : Option Pthread}

/-- A section of a call that counts as before. -/
theorem Threads.Counted.keep (h : s.Counted P) (hactive : st.active = (s.calls c).active)
    (hunjoined : st.unjoined = (s.calls c).unjoined) : (s.setCall c st).Counted P where
  active := h.active.keep_left hactive
  unjoined := h.unjoined.keep_left hunjoined

omit [DecidableEq T] in
/-- An object that is written, with a handle as before. -/
theorem Threads.Counted.write (h : s.Counted P)
    (ht : published t = published (s.objects thread)) : (s.setObject thread t).Counted P where
  active := h.active
  unjoined := h.unjoined.keep_right ht

omit [DecidableEq T] in
/-- A thread that goes on, inside its trampoline or outside. -/
theorem Threads.Counted.goOn (h : s.Counted P) (hq : runs q = runs (s.pthreads pthread)) :
    (s.setPthread pthread q).Counted P where
  active := h.active.keep_right hq
  unjoined := h.unjoined

/-- The caller counts a handle that nobody has. -/
theorem Threads.Counted.addUnjoined (h : s.Counted P) (hc : (s.calls c).active = st.active)
    (hunjoined : (s.calls c).unjoined = 0) (hst : st.unjoined = 1) :
    (({ s with unjoined := fetchAdd P s.unjoined } : Threads T E).setCall c st).Counted P where
  active := h.active.keep_left hc.symm
  unjoined := by
    apply h.unjoined.update_left (fetchAdd_lt _)
    rw [hunjoined, hst]
    exact fetchAdd_modEq _

/-- The caller does not count its handle any more. -/
theorem Threads.Counted.subUnjoined (h : s.Counted P) (hc : (s.calls c).active = st.active)
    (hunjoined : (s.calls c).unjoined = 1) (hst : st.unjoined = 0) :
    (({ s with unjoined := fetchSub P s.unjoined } : Threads T E).setCall c st).Counted P where
  active := h.active.keep_left hc.symm
  unjoined := by
    apply h.unjoined.update_left (fetchSub_lt _)
    rw [hunjoined, hst]
    exact fetchSub_modEq _

theorem uncounted_counted (h : s.Counted P) {ret : SysErr} (hc : s.calls c = .failed thread ret) :
    (({ s with active := fetchSub P s.active } : Threads T E).setCall c
      (.uncounting thread ret)).Counted P where
  active := by
    apply h.active.update_left (fetchSub_lt _)
    rw [hc]
    exact fetchSub_modEq _
  unjoined := h.unjoined.keep_left (by rw [hc]; rfl)

/-- The new object is not a handle yet, and its thread counts as active at once. -/
theorem allocated_counted (h : s.Counted P) (hc : s.calls c = .idle)
    (hfree : s.objects thread = none) (hst : st = .counted thread)
    {x : SysThread E} (hx : x.handle = none) :
    (({ s with active := fetchAdd P s.active }.setObject thread (some x)).setCall c st).Counted
      P where
  active := by
    apply h.active.update_left (fetchAdd_lt _)
    rw [hc, hst]
    exact fetchAdd_modEq _
  unjoined := by
    apply h.unjoined.update h.unjoined.counter_lt
    rw [hc, hst, hfree, published_of_none hx]
    rfl

theorem spawned_counted (h : s.Counted P) (hc : s.calls c = .spawning thread)
    (hfree : s.pthreads pthread = none) {x : SysThread E} (hx : s.objects thread = some x)
    (hhandle : x.handle = none) :
    (((s.setObject thread (some { x with handle := some pthread })).setPthread pthread
      (some { argument := thread })).setCall c (.returned .ok (some thread))).Counted P where
  active := by
    apply h.active.update h.active.counter_lt
    rw [hc, hfree]
    rfl
  unjoined := by
    apply h.unjoined.update h.unjoined.counter_lt
    rw [hc, hx, published_of_none hhandle]
    rfl

omit [DecidableEq T] in
theorem finished_counted (h : s.Counted P) {x : Pthread} (hx : s.pthreads pthread = some x)
    (hpoint : x.point = .returning) :
    ({ s.setPthread pthread (some { x with point := .ended }) with
      active := fetchSub P s.active } : Threads T E).Counted P where
  active := by
    apply h.active.update_right (fetchSub_lt _)
    have hne : x.point ≠ .ended := by
      rw [hpoint]
      decide
    rw [hx, runs_of_ne hne]
    exact fetchSub_modEq _
  unjoined := h.unjoined

theorem joined_counted (h : s.Counted P) {x : Pthread} (hx : s.pthreads pthread = some x)
    (hpoint : x.point = .ended) (hactive : st.active = (s.calls c).active)
    (hunjoined : st.unjoined = (s.calls c).unjoined) :
    ((s.setPthread pthread none).setCall c st).Counted P := by
  have hruns : runs none = runs (s.pthreads pthread) := by
    rw [hx, runs_of_ended hpoint]
    rfl
  exact (h.goOn hruns).keep hactive hunjoined

theorem released_counted (h : s.Counted P) (hc : s.calls c = .joined thread)
    (hx : published (s.objects thread) = 1) :
    ((s.setObject thread none).setCall c .freed).Counted P where
  active := h.active.keep_left (by rw [hc]; rfl)
  unjoined := by
    apply h.unjoined.update h.unjoined.counter_lt
    rw [hc, hx]
    rfl

omit [DecidableEq T] in
theorem stop_counted {thread : Option Nat} (h : s.Counted P) :
    (sysThreadRequestStop s thread).Counted P := by
  cases thread with
  | none => exact h
  | some thread =>
      apply h.write
      cases ht : s.objects thread with
      | none => rfl
      | some x => rfl

/-! ## Every run -/

theorem step_counted {e : Event T E} (h : ThreadStep P s e s') (howned : s.Owned)
    (hs : s.Counted P) : s'.Counted P := by
  obtain ⟨owner, hold⟩ := howned
  cases h with
  | refused hc _ => exact hs.keep (by rw [hc]; rfl) (by rw [hc]; rfl)
  | allocated hc _ _ hfree => exact allocated_counted hs hc hfree rfl rfl
  | spawnFailed hc _ => exact hs.keep (by rw [hc]; rfl) (by rw [hc]; rfl)
  | @spawned c pthread thread x hc hfree hx =>
      have hmaker := (hold.maker c thread).mp (by rw [Threads.roleOf, hc]; rfl)
      have hhandle := hold.handle_eq thread
      rw [hmaker, Threads.handleAt, hx] at hhandle
      exact spawned_counted hs hc hfree hx (Option.some.inj hhandle)
  | stopRequested _ => exact stop_counted hs
  | joinRefused hc _ => exact hs.keep (by rw [hc]; rfl) (by rw [hc]; rfl)
  | joins hc _ _ _ => exact hs.keep (by rw [hc]; rfl) (by rw [hc]; rfl)
  | joinFailed hc _ => exact hs.keep (by rw [hc]; rfl) (by rw [hc]; rfl)
  | joined hc _ _ hq hpoint =>
      exact joined_counted hs hq hpoint (by rw [hc]; rfl) (by rw [hc]; rfl)
  | counted hc => exact hs.addUnjoined (by rw [hc]; rfl) (by rw [hc]; rfl) rfl
  | uncounted hc => exact uncounted_counted hs hc
  | undone hc => exact hs.subUnjoined (by rw [hc]; rfl) (by rw [hc]; rfl) rfl
  | @freed c thread ret hc =>
      have hmaker := (hold.maker c thread).mp (by rw [Threads.roleOf, hc]; rfl)
      have hhandle := hold.handle_eq thread
      rw [hmaker] at hhandle
      obtain ⟨x, hx, hp⟩ := Option.map_eq_some_iff.mp hhandle
      have hpublished : published (s.objects thread) = 0 := by
        rw [hx, published_of_none hp]
      have hcall : (s.setObject thread none).calls c = .freeing thread ret := hc
      have hwritten : (s.setObject thread none).Counted P := hs.write hpublished.symm
      exact hwritten.keep (by rw [hcall]; rfl) (by rw [hcall]; rfl)
  | @released c thread hc =>
      obtain ⟨p, hreaper⟩ := (hold.reaper c thread).mp (by rw [Threads.roleOf, hc]; rfl)
      have hhandle := hold.handle_eq thread
      rw [hreaper] at hhandle
      obtain ⟨x, hx, hp⟩ := Option.map_eq_some_iff.mp hhandle
      apply released_counted hs hc
      rw [hx, published_of_handle hp]
  | reported hc => exact hs.subUnjoined (by rw [hc]; rfl) (by rw [hc]; rfl) rfl
  | done hc => exact hs.keep (by rw [hc]; rfl) (by rw [hc]; rfl)
  | entered hq hpoint =>
      apply hs.goOn
      rw [hq, runs_of_ne (by simp), runs_of_ne (by simp [hpoint])]
  | left _ hq hpoint =>
      apply hs.goOn
      rw [hq, runs_of_ne (by simp), runs_of_ne (by simp [hpoint])]
  | finished hq hpoint => exact finished_counted hs hq hpoint

end Steps

/-! ## The two counts -/

section Account

variable [DecidableEq T]

theorem counted_of_reachable (h : (threadMachine T E P).Reachable s) : s.Counted P := by
  have hboth : s.Owned ∧ s.Counted P := by
    apply h.invariant (I := fun s => s.Owned ∧ s.Counted P)
    · intro s hfresh
      exact ⟨fresh_owned hfresh, fresh_counted hfresh⟩
    · intro s e s' hs hstep
      have hcases := next_cases hstep.1
      exact ⟨step_owned hcases hstep.2 hs.1, step_counted hcases hs.1 hs.2⟩
  exact hboth.2

omit [DecidableEq T] in
theorem active_le (st : CallState) : st.active ≤ 1 := by
  cases st <;> simp [CallState.active]

omit [DecidableEq T] in
theorem unjoined_le (st : CallState) : st.unjoined ≤ 1 := by
  cases st <;> simp [CallState.unjoined]

theorem runs_le (q : Option Pthread) : runs q ≤ 1 := by
  unfold runs
  split <;> omega

theorem published_le (t : Option (SysThread E)) : published t ≤ 1 := by
  unfold published
  split <;> omega

/-- The counters as numbers of threads and calls: those that the loads of
    `sys_thread_active_count` and `sys_thread_unjoined_count` find. -/
structure Threads.Account (P : Platform) (s : Threads T E) : Prop where
  finite_calls : {c | (s.calls c).active = 1 ∨ (s.calls c).unjoined = 1}.Finite
  finite_pthreads : {p | ∃ q, s.pthreads p = some q ∧ q.point ≠ .ended}.Finite
  finite_handles : {thread | ∃ t p, s.objects thread = some t ∧ t.handle = some p}.Finite
  active : s.active = P.wrap ({c | (s.calls c).active = 1}.ncard +
    {p | ∃ q, s.pthreads p = some q ∧ q.point ≠ .ended}.ncard)
  unjoined : s.unjoined = P.wrap ({c | (s.calls c).unjoined = 1}.ncard +
    {thread | ∃ t p, s.objects thread = some t ∧ t.handle = some p}.ncard)

theorem runs_eq_one (q : Option Pthread) :
    runs q = 1 ↔ ∃ x, q = some x ∧ x.point ≠ .ended := by
  cases q with
  | none => exact ⟨fun h => (by cases h), by rintro ⟨_, h, _⟩; cases h⟩
  | some x =>
      by_cases hx : x.point = .ended
      · rw [runs_of_ended hx]
        exact ⟨fun h => (by cases h), by rintro ⟨_, h, hne⟩; cases h; exact absurd hx hne⟩
      · rw [runs_of_ne hx]
        exact ⟨fun _ => ⟨x, rfl, hx⟩, fun _ => rfl⟩

theorem published_eq_one (t : Option (SysThread E)) :
    published t = 1 ↔ ∃ x p, t = some x ∧ x.handle = some p := by
  cases t with
  | none => exact ⟨fun h => (by cases h), by rintro ⟨_, _, h, _⟩; cases h⟩
  | some x =>
      cases hx : x.handle with
      | none =>
          rw [published_of_none hx]
          exact ⟨fun h => (by cases h), by rintro ⟨_, _, h, hp⟩; cases h; simp [hx] at hp⟩
      | some p =>
          rw [published_of_handle hx]
          exact ⟨fun _ => ⟨x, p, rfl, hx⟩, fun _ => rfl⟩

omit [DecidableEq T] in
theorem Threads.Counted.account (h : s.Counted P) : s.Account P := by
  obtain ⟨hcalls, hpthreads, hactive⟩ := h.active.counter_eq_ncard active_le runs_le
  obtain ⟨hcalls', hobjects, hunjoined⟩ := h.unjoined.counter_eq_ncard unjoined_le published_le
  simp only [runs_eq_one] at hpthreads hactive
  simp only [published_eq_one] at hobjects hunjoined
  exact ⟨hcalls.union hcalls', hpthreads, hobjects, hactive, hunjoined⟩

/-- In every run `sys_thread_active_count` is the number of threads in their trampoline, and
    `sys_thread_unjoined_count` the number of handles, each with the calls that are in the
    middle of it. -/
theorem counters_account (h : (threadMachine T E P).Reachable s) : s.Account P :=
  (counted_of_reachable h).account

/-- The counts of a thread that has ended and been joined. -/
theorem counters_account_joined :
    ∃ s : Threads Unit Unit, s.active = 0 ∧ s.unjoined = 1 ∧ s.Account .lp64 := by
  obtain ⟨s, hs, hcounts⟩ := Option.map_eq_some_iff.mp (show
    (afterJoin []).map (fun s => (s.active, s.unjoined)) = some (0, 1) by decide)
  obtain ⟨hactive, hunjoined⟩ := Prod.mk.inj hcounts
  exact ⟨s, hactive, hunjoined, counters_account (afterJoin_reachable (by simp) hs)⟩

omit [DecidableEq T] in
/-- The sections in which a call has an object that it does not count as a handle. -/
theorem uncounted_of_makes {st : CallState} {thread : Nat} (hrole : st.role = .makes thread)
    (hst : st.unjoined ≠ 1) : st = .counted thread ∨ ∃ ret, st = .freeing thread ret := by
  cases st <;> simp_all [CallState.role, CallState.unjoined]

omit [DecidableEq T] in
/-- A count of zero that has not wrapped around counts nothing. -/
theorem Threads.Account.nothing (h : s.Account P)
    (hroom : {c | (s.calls c).unjoined = 1}.ncard +
      {thread | ∃ t p, s.objects thread = some t ∧ t.handle = some p}.ncard ≤ P.sizeMax)
    (hzero : s.unjoined = 0) :
    (∀ c, (s.calls c).unjoined ≠ 1) ∧
      ∀ thread t, s.objects thread = some t → t.handle = none := by
  have hsum := h.unjoined
  rw [Platform.wrap_of_le hroom, hzero] at hsum
  obtain ⟨hnocall, hnohandle⟩ := Nat.add_eq_zero_iff.mp hsum.symm
  have hcalls : {c | (s.calls c).unjoined = 1} = ∅ := by
    have hfinite := h.finite_calls.subset fun c (hc : (s.calls c).unjoined = 1) => Or.inr hc
    exact (Set.ncard_eq_zero hfinite).mp hnocall
  have hhandles : {thread | ∃ t p, s.objects thread = some t ∧ t.handle = some p} = ∅ :=
    (Set.ncard_eq_zero h.finite_handles).mp hnohandle
  constructor
  · intro c hc
    have hmem : c ∈ {c | (s.calls c).unjoined = 1} := hc
    rw [hcalls] at hmem
    exact hmem
  · intro thread t ht
    cases hp : t.handle with
    | none => rfl
    | some p =>
        have hmem : thread ∈ {thread | ∃ t p, s.objects thread = some t ∧ t.handle = some p} :=
          ⟨t, p, ht, hp⟩
        rw [hhandles] at hmem
        exact absurd hmem (Set.notMem_empty thread)

/-- What `sys_core_shutdown` relies on: as long as the handles are too few to wrap around, a
    count of zero means that no managed thread exists, not even one that has ended.  Only a
    call that has not counted its handle yet, or has given it up, still has an object. -/
theorem no_thread_when_unjoined_zero (h : (threadMachine T E P).Reachable s)
    (hroom : {c | (s.calls c).unjoined = 1}.ncard +
      {thread | ∃ t p, s.objects thread = some t ∧ t.handle = some p}.ncard ≤ P.sizeMax)
    (hzero : s.unjoined = 0) :
    (∀ p, s.pthreads p = none) ∧ ∀ thread, s.objects thread ≠ none → ∃ c,
      s.calls c = .counted thread ∨ ∃ ret, s.calls c = .freeing thread ret := by
  obtain ⟨hcalls, hhandles⟩ := (counted_of_reachable h).account.nothing hroom hzero
  obtain ⟨owner, hold⟩ := owned_of_reachable h
  have hunnamed : ∀ thread p, s.handleAt thread ≠ some (some p) := by
    intro thread p hhandle
    obtain ⟨t, ht, hp⟩ := Option.map_eq_some_iff.mp hhandle
    rw [hhandles thread t ht] at hp
    cases hp
  constructor
  · intro p
    cases hq : s.pthreads p with
    | none => rfl
    | some q =>
        have hargument : s.argumentAt p = some q.argument := by
          rw [Threads.argumentAt, hq]
          rfl
        exact absurd (hold.handle_of_argument hargument) (hunnamed _ p)
  · intro thread hobject
    have hhandle := hold.handle_eq thread
    cases ho : owner thread with
    | nobody =>
        rw [ho] at hhandle
        exact absurd (Option.map_eq_none_iff.mp hhandle) hobject
    | maker c =>
        have hrole : (s.calls c).role = .makes thread := (hold.maker c thread).mpr ho
        exact ⟨c, uncounted_of_makes hrole (hcalls c)⟩
    | worker p =>
        rw [ho] at hhandle
        exact absurd hhandle (hunnamed thread p)
    | reaper c p =>
        rw [ho] at hhandle
        exact absurd hhandle (hunnamed thread p)

omit [DecidableEq T] in
/-- Without calls and without objects there is room for a handle. -/
theorem room_of_none (hcalls : ∀ c, (s.calls c).unjoined = 0)
    (hobjects : ∀ thread, s.objects thread = none) :
    {c | (s.calls c).unjoined = 1}.ncard +
      {thread | ∃ t p, s.objects thread = some t ∧ t.handle = some p}.ncard ≤ P.sizeMax := by
  have hnocall : {c | (s.calls c).unjoined = 1} = ∅ := by
    refine Set.eq_empty_of_forall_notMem fun c (hc : (s.calls c).unjoined = 1) => ?_
    rw [hcalls] at hc
    cases hc
  have hnohandle : {thread | ∃ t p, s.objects thread = some t ∧ t.handle = some p} = ∅ := by
    refine Set.eq_empty_of_forall_notMem ?_
    rintro thread ⟨t, p, ht, -⟩
    rw [hobjects] at ht
    cases ht
  rw [hnocall, hnohandle, Set.ncard_empty, Set.ncard_empty]
  exact Nat.zero_le _

/-- The threads after one has been created and joined. -/
theorem no_thread_when_unjoined_zero_joined :
    ∃ s : Threads Unit Unit, s.calls (.app ()) = .returned .ok none ∧
      (∀ p, s.pthreads p = none) ∧ ∀ thread, s.objects thread ≠ none → ∃ c,
        s.calls c = .counted thread ∨ ∃ ret, s.calls c = .freeing thread ret := by
  have hs : afterJoin [.proceed (.app ()), .proceed (.app ())] = some _ := rfl
  have hreach := afterJoin_reachable (by simp [Contract]) hs
  refine ⟨_, rfl, no_thread_when_unjoined_zero hreach (room_of_none ?_ ?_) rfl⟩
  · intro c
    cases c with
    | app t => rfl
    | managed p => rfl
  · intro thread
    cases thread with
    | zero => rfl
    | succ n => rfl

end Account

end Thread
end AppCore
