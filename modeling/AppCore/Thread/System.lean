/-
  AppCore.Thread.System

  The steps of the managed threads one by one, and what their users owe.
-/

import AppCore.Lib.Custody
import AppCore.Thread.Model

namespace AppCore
namespace Thread

variable {T E : Type*} {P : Platform}

/-! ## The steps, one by one -/

section Steps

variable [DecidableEq T]

/-- The steps, one by one, with what each finds. -/
inductive ThreadStep (P : Platform) (s : Threads T E) : Event T E → Threads T E → Prop
  | refused {c name entry outThread memory ret} : s.calls c = .idle → s.CanCall c →
      ThreadStep P s (.create c name entry outThread memory) (s.setCall c (.returned ret none))
  | allocated {c name entry thread} : s.calls c = .idle → s.CanCall c →
      name.length < sysThreadNameCapacity → s.objects thread = none →
      ThreadStep P s (.create c (some name) (some entry) true (some thread))
        (({ s with active := fetchAdd P s.active }.setObject thread
          (some { entry := entry, name := name })).setCall c (.counted thread))
  | spawnFailed {c ret pthread thread} : s.calls c = .spawning thread → ret ≠ 0 →
      ThreadStep P s (.spawn c ret pthread)
        (s.setCall c (.failed thread (sysErrorFromErrno ret)))
  | spawned {c pthread thread t} : s.calls c = .spawning thread → s.pthreads pthread = none →
      s.objects thread = some t →
      ThreadStep P s (.spawn c 0 pthread)
        (((s.setObject thread (some { t with handle := some pthread })).setPthread pthread
          (some { argument := thread })).setCall c (.returned .ok (some thread)))
  | stopRequested {c thread} : s.calls c = .idle →
      ThreadStep P s (.requestStop c thread) (sysThreadRequestStop s thread)
  /-- There is no handle, or it is the caller's own. -/
  | joinRefused {c thread timeoutMs ret} : s.calls c = .idle → s.CanCall c →
      ThreadStep P s (.join c thread timeoutMs) (s.setCall c (.returned ret none))
  | joins {c thread timeoutMs t} : s.calls c = .idle → s.CanCall c →
      s.objects thread = some t → pthreadEqual t.handle c = false →
      ThreadStep P s (.join c (some thread) timeoutMs) (s.setCall c (.joining thread timeoutMs))
  | joinFailed {c ret thread timeoutMs} : s.calls c = .joining thread timeoutMs → ret ≠ 0 →
      ThreadStep P s (.joinReturned c ret) (s.setCall c (.returned (Event.joinError ret) none))
  | joined {c thread timeoutMs t p q} : s.calls c = .joining thread timeoutMs →
      s.objects thread = some t → t.handle = some p → s.pthreads p = some q →
      q.point = .ended →
      ThreadStep P s (.joinReturned c 0) ((s.setPthread p none).setCall c (.joined thread))
  | counted {c thread} : s.calls c = .counted thread →
      ThreadStep P s (.proceed c)
        ({ s with unjoined := fetchAdd P s.unjoined }.setCall c (.spawning thread))
  | uncounted {c thread ret} : s.calls c = .failed thread ret →
      ThreadStep P s (.proceed c)
        ({ s with active := fetchSub P s.active }.setCall c (.uncounting thread ret))
  | undone {c thread ret} : s.calls c = .uncounting thread ret →
      ThreadStep P s (.proceed c)
        ({ s with unjoined := fetchSub P s.unjoined }.setCall c (.freeing thread ret))
  | freed {c thread ret} : s.calls c = .freeing thread ret →
      ThreadStep P s (.proceed c) ((s.setObject thread none).setCall c (.returned ret none))
  | released {c thread} : s.calls c = .joined thread →
      ThreadStep P s (.proceed c) ((s.setObject thread none).setCall c .freed)
  | reported {c} : s.calls c = .freed →
      ThreadStep P s (.proceed c)
        ({ s with unjoined := fetchSub P s.unjoined }.setCall c (.returned .ok none))
  | done {c ret out} : s.calls c = .returned ret out →
      ThreadStep P s (.done c) (s.setCall c .idle)
  | entered {p q} : s.pthreads p = some q → q.point = .started →
      ThreadStep P s (.enter p) (s.setPthread p (some { q with point := .running }))
  | left {p q} : s.calls (.managed p) = .idle → s.pthreads p = some q → q.point = .running →
      ThreadStep P s (.leave p) (s.setPthread p (some { q with point := .returning }))
  | finished {p q} : s.pthreads p = some q → q.point = .returning →
      ThreadStep P s (.finish p)
        { s.setPthread p (some { q with point := .ended }) with active := fetchSub P s.active }

variable {s s' : Threads T E}

omit [DecidableEq T] in
theorem move_cases {p : Nat} {a b : Trampoline} (h : s.move p a b = some s') :
    ∃ q, s.pthreads p = some q ∧ q.point = a ∧
      s' = s.setPthread p (some { q with point := b }) := by
  cases hp : s.pthreads p with
  | none =>
      simp only [Threads.move, hp] at h
      cases h
  | some q =>
      simp only [Threads.move, hp] at h
      split at h
      · rename_i hpoint
        exact ⟨q, rfl, hpoint, (Option.some.inj h).symm⟩
      · cases h

theorem create_cases {c : Caller T} {name : Option (List UInt8)} {entry : Option E}
    {outThread : Bool} {memory : Option Nat} (hidle : s.calls c = .idle) (hcan : s.CanCall c)
    (h : sysThreadCreate P s c name entry outThread memory = some s') :
    ThreadStep P s (.create c name entry outThread memory) s' := by
  unfold sysThreadCreate at h
  split at h
  · obtain rfl := Option.some.inj h
    exact .refused hidle hcan
  rename_i hout
  split at h
  · rename_i name entry
    split at h
    · obtain rfl := Option.some.inj h
      exact .refused hidle hcan
    · rename_i hname
      split at h
      · obtain rfl := Option.some.inj h
        exact .refused hidle hcan
      · rename_i thread
        split at h
        · rename_i hfree
          obtain rfl := Option.some.inj h
          have htrue : outThread = true := by simpa using hout
          subst htrue
          exact .allocated hidle hcan (by omega) hfree
        · cases h
  · obtain rfl := Option.some.inj h
    exact .refused hidle hcan

theorem proceed_cases {c : Caller T} (h : proceed P s c = some s') :
    ThreadStep P s (.proceed c) s' := by
  cases hc : s.calls c with
  | counted thread =>
      simp only [proceed, hc] at h
      obtain rfl := Option.some.inj h
      exact .counted hc
  | failed thread ret =>
      simp only [proceed, hc] at h
      obtain rfl := Option.some.inj h
      exact .uncounted hc
  | uncounting thread ret =>
      simp only [proceed, hc] at h
      obtain rfl := Option.some.inj h
      exact .undone hc
  | freeing thread ret =>
      simp only [proceed, hc] at h
      obtain rfl := Option.some.inj h
      exact .freed hc
  | joined thread =>
      simp only [proceed, hc] at h
      obtain rfl := Option.some.inj h
      exact .released hc
  | freed =>
      simp only [proceed, hc] at h
      obtain rfl := Option.some.inj h
      exact .reported hc
  | _ =>
      simp only [proceed, hc] at h
      cases h

/-- `next` does nothing else. -/
theorem next_cases {e : Event T E} (h : next P s e = some s') : ThreadStep P s e s' := by
  cases e with
  | create c name entry outThread memory =>
      simp only [next] at h
      split at h
      · rename_i hidle
        exact create_cases hidle.1 hidle.2 h
      · cases h
  | spawn c ret pthread =>
      simp only [next, spawnSection] at h
      split at h
      · rename_i thread hc
        split at h
        · rename_i hret
          obtain rfl := Option.some.inj h
          exact .spawnFailed hc hret
        · rename_i hret
          obtain rfl := not_not.mp hret
          split at h
          · rename_i hfree
            obtain ⟨t, ht, rfl⟩ := Option.map_eq_some_iff.mp h
            exact .spawned hc hfree ht
          · cases h
      · cases h
  | requestStop c thread =>
      simp only [next] at h
      split at h
      · rename_i hidle
        obtain rfl := Option.some.inj h
        exact .stopRequested hidle.1
      · cases h
  | join c thread timeoutMs =>
      simp only [next] at h
      split at h
      · rename_i hidle
        cases thread with
        | none =>
            obtain rfl := Option.some.inj h
            exact .joinRefused hidle.1 hidle.2
        | some thread =>
            obtain ⟨t, ht, hs⟩ := Option.map_eq_some_iff.mp h
            split at hs
            · obtain rfl := hs
              exact .joinRefused hidle.1 hidle.2
            · rename_i hself
              obtain rfl := hs
              exact .joins hidle.1 hidle.2 ht (by simpa using hself)
      · cases h
  | joinReturned c ret =>
      simp only [next, joinSection] at h
      split at h
      · rename_i thread timeoutMs hc
        split at h
        · rename_i hret
          obtain rfl := Option.some.inj h
          exact .joinFailed hc hret
        · rename_i hret
          obtain rfl := not_not.mp hret
          obtain ⟨t, ht, hrest⟩ := Option.bind_eq_some_iff.mp h
          obtain ⟨p, hp, hended⟩ := Option.bind_eq_some_iff.mp hrest
          split at hended
          · rename_i hpoint
            obtain rfl := Option.some.inj hended
            obtain ⟨q, hq, hpoint⟩ := Option.map_eq_some_iff.mp hpoint
            exact .joined hc ht hp hq hpoint
          · cases hended
      · cases h
  | proceed c => exact proceed_cases h
  | done c =>
      simp only [next] at h
      split at h
      · rename_i ret out hc
        obtain rfl := Option.some.inj h
        exact .done hc
      · cases h
  | enter p =>
      obtain ⟨q, hq, hpoint, rfl⟩ := move_cases h
      exact .entered hq hpoint
  | leave p =>
      simp only [next] at h
      split at h
      · rename_i hidle
        obtain ⟨q, hq, hpoint, rfl⟩ := move_cases h
        exact .left hidle hq hpoint
      · cases h
  | finish p =>
      obtain ⟨s₁, hmove, rfl⟩ := Option.map_eq_some_iff.mp h
      obtain ⟨q, hq, hpoint, rfl⟩ := move_cases hmove
      exact .finished hq hpoint

end Steps

/-! ## What the users owe -/

/-- What a call is doing with an object. -/
def CallState.role : CallState → Custody.Role Nat
  | .counted thread => .makes thread
  | .spawning thread => .makes thread
  | .failed thread _ => .makes thread
  | .uncounting thread _ => .makes thread
  | .freeing thread _ => .makes thread
  | .joining thread _ => .joins thread
  | .joined thread => .reaps thread
  | _ => .none

/-- A handle that `sys_thread_create` has returned and that nobody is joining. -/
def Threads.Joinable (s : Threads T E) (thread : Nat) : Prop :=
  (∃ t p, s.objects thread = some t ∧ t.handle = some p) ∧
    ∀ c, (s.calls c).role ≠ .joins thread ∧ (s.calls c).role ≠ .reaps thread

/-- The users join a handle that they have and that nobody else is joining, and they send a
    request to a thread that exists. -/
def Contract (s : Threads T E) : Event T E → Prop
  | .join _ (some thread) _ => s.Joinable thread
  | .requestStop _ (some thread) => s.objects thread ≠ none
  | _ => True

/-- No thread has been created. -/
structure Threads.Fresh (s : Threads T E) : Prop where
  active : s.active = 0
  unjoined : s.unjoined = 0
  objects : s.objects = fun _ => none
  pthreads : s.pthreads = fun _ => none
  calls : s.calls = fun _ => .idle

/-- The managed threads under all interleavings. -/
def threadMachine (T E : Type*) [DecidableEq T] (P : Platform) :
    Machine (Threads T E) (Event T E) :=
  (Machine.ofNext Threads.Fresh (next P)).restrict fun s e _ => Contract s e

end Thread
end AppCore
