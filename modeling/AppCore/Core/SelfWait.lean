/-
  AppCore.Core.SelfWait

  A thread that waits for a callback it is executing itself.  `sys_event_unsubscribe`
  refuses to wait inside a callback, and `sys_event_bus_stop` does so on the worker, where
  its join fails.  On any other thread a stop inside a callback goes on to its wait.
-/

import AppCore.Core.Threads

namespace AppCore
namespace Core

open Event (Bus Thread WorkerLoop CallState Call ThreadLocal Globals Move)
open Reentry (Act Turn Nested)

variable {Tid K : Type*}

/-- The call `k` waits until the subscription `a` is in no callback. -/
def Framework.WaitsOn (s : Framework Tid K) (k : K) (a : Nat) : Prop :=
  s.bus.calls k = .unsubscribeWait a ∨
    s.bus.calls k = .stopWait ∧ a ∈ s.bus.globals.subscribers

/-- The thread waits for a callback that it is executing. -/
def Framework.WaitsForItself (s : Framework Tid K) (t : Thread (Caller Tid)) : Prop :=
  ∃ k rest a, s.bus.stack t = k :: rest ∧ s.WaitsOn k a ∧ s.Executing t a

/-- A stop that is not refused is made outside every callback, or by the worker. -/
def StopsOutside (s : Framework Tid K) : CoreAction Tid K → Prop
  | .busCall _ => ∀ f, s.frame = some f → f.point = .busStop → s.bus.globals.running = true →
      f.thread = .worker ∨ (s.bus.locals f.thread).callbackDepth = 0
  | _ => True

/-- The calls that wait, or will wait, are alone on their threads.  A stop of the worker is
    about to be refused. -/
structure Framework.WaitsAlone (s : Framework Tid K) : Prop where
  unsubscribe : ∀ k a, s.bus.calls k = .unsubscribeWait a ∨ s.bus.calls k = .unsubscribeFree a →
    s.stacks.Alone k
  join : ∀ k, s.bus.calls k = .stopJoin → s.stacks.Alone k ∨ k ∈ s.bus.stack .worker
  stop : ∀ k, s.bus.calls k = .stopWait → s.stacks.Alone k

section Callbacks

variable {s : Framework Tid K} {t : Thread (Caller Tid)} {k : K} {a : Nat}

theorem Framework.Executing.inCallback (h : s.Executing t a) : s.stacks.InCallback t := by
  rcases h with ⟨k, hk, d, firstError, hcall, hphase, -⟩ | ⟨k, d, hloop, hphase, -⟩
  · refine Or.inl ⟨k, hk, ?_⟩
    show (s.bus.calls k).status = .inCallback
    rw [hcall]
    exact if_pos hphase
  · refine Or.inr ?_
    show s.base t = true
    rcases hloop with ⟨rfl, hw⟩ | ⟨n, rfl, hw⟩
    · show s.bus.worker.inCallback = true
      rw [hw]
      exact decide_eq_true hphase
    · show (s.abandoned n).inCallback = true
      rw [hw]
      exact decide_eq_true hphase

/-- A thread executing a callback has a positive depth. -/
theorem Framework.Executing.depth_pos (h : s.Executing t a) (hs : s.Threaded) :
    0 < (s.bus.locals t).callbackDepth :=
  (hs.nested.depth_pos_iff t).mpr h.inCallback

/-- A call that is alone on its thread is made outside every callback. -/
theorem not_inCallback_of_alone (h : s.stacks.Alone k) (hk : k ∈ s.bus.stack t)
    (hstatus : (s.bus.calls k).status ≠ .inCallback) : ¬ s.stacks.InCallback t := by
  obtain ⟨hstack, hbase⟩ := h t hk
  rintro (⟨k', hk', hin⟩ | hin)
  · rw [hstack] at hk'
    obtain rfl := List.mem_singleton.mp hk'
    exact hstatus hin
  · rw [hbase] at hin
    cases hin

end Callbacks

/-! ## Steps -/

section Steps

variable {s s' : Framework Tid K} {act : Act (Thread (Caller Tid))}

theorem unsubscribing_of_next {st st' : CallState} {a : Nat} (h : st.Next st')
    (hst : st' = .unsubscribeWait a ∨ st' = .unsubscribeFree a) :
    st = .notStarted ∨ st = .unsubscribeWait a := by
  cases h with
  | answered => exact Or.inl rfl
  | opened _ => exact Or.inl rfl
  | advanced hadv =>
      cases hadv with
      | publishing _ _ => rcases hst with hst | hst <;> cases hst
      | unsubscribe =>
          rcases hst with hst | hst
          · cases hst
          · cases hst
            exact Or.inr rfl
  | created => rcases hst with hst | hst <;> cases hst
  | joined => rcases hst with hst | hst <;> cases hst
  | calledBack _ => rcases hst with hst | hst <;> cases hst
  | resumed _ => rcases hst with hst | hst <;> cases hst
  | left _ => rcases hst with hst | hst <;> cases hst

theorem stopJoin_of_next {st : CallState} (h : st.Next .stopJoin) : st = .notStarted := by
  cases h with
  | opened _ => rfl
  | advanced hadv => cases hadv

theorem stopWait_of_next {st : CallState} (h : st.Next .stopWait) : st = .stopJoin := by
  cases h with
  | @opened tls _ call hopens =>
      -- no call begins with the wait
      cases call with
      | start => cases hopens
      | stop => cases hopens
      | subscribe _ _ _ _ _ => exact hopens.elim
      | unsubscribe subscription =>
          cases subscription with
          | none => exact hopens.elim
          | some a => rcases hopens.2 with h | h <;> cases h
      | publishSync _ _ _ =>
          obtain ⟨d, firstError, h, -⟩ := hopens
          cases h
      | publishAsync _ _ _ _ => exact hopens.elim
  | advanced hadv => cases hadv
  | joined => rfl

variable [DecidableEq Tid] [DecidableEq K]

/-- A turn keeps the waiting calls alone when the calls it opens are. -/
theorem Framework.WaitsAlone.turn (hw : s.WaitsAlone)
    (hturn : Turn Outsider s.stacks act s'.stacks)
    (hcalls : ∀ k, s'.bus.calls k = s.bus.calls k ∨ (s.bus.calls k).Next (s'.bus.calls k))
    (hunsubscribe : ∀ k a, s.bus.calls k = .notStarted →
      s'.bus.calls k = .unsubscribeWait a ∨ s'.bus.calls k = .unsubscribeFree a →
      s'.stacks.Alone k)
    (hjoin : ∀ k, s.bus.calls k = .notStarted → s'.bus.calls k = .stopJoin →
      s'.stacks.Alone k ∨ k ∈ s'.bus.stack .worker)
    (hstop : ∀ k, s.bus.calls k = .stopJoin → s'.bus.calls k = .stopWait →
      k ∉ s.bus.stack .worker) : s'.WaitsAlone := by
  have hactive : ∀ k st, s.bus.calls k = st → st.status = .active →
      s.stacks.Alone k → s'.stacks.Alone k := by
    intro k st hk hst halone
    exact hturn.alone halone ((congrArg CallState.status hk).trans hst)
  constructor
  · intro k a hk
    rcases hcalls k with hsame | hnext
    · rw [hsame] at hk
      rcases hk with hk | hk
      · exact hactive k _ hk rfl (hw.unsubscribe k a (Or.inl hk))
      · exact hactive k _ hk rfl (hw.unsubscribe k a (Or.inr hk))
    · rcases unsubscribing_of_next hnext hk with hold | hold
      · exact hunsubscribe k a hold hk
      · exact hactive k _ hold rfl (hw.unsubscribe k a (Or.inl hold))
  · intro k hk
    rcases hcalls k with hsame | hnext
    · rw [hsame] at hk
      rcases hw.join k hk with halone | hmem
      · exact Or.inl (hactive k _ hk rfl halone)
      · refine Or.inr (hturn.mem_stack hmem ?_)
        show (s'.bus.calls k).status ≠ .over
        rw [hsame, hk]
        exact fun h => nomatch h
    · rw [hk] at hnext
      exact hjoin k (stopJoin_of_next hnext) hk
  · intro k hk
    rcases hcalls k with hsame | hnext
    · rw [hsame] at hk
      exact hactive k _ hk rfl (hw.stop k hk)
    · rw [hk] at hnext
      have hold := stopWait_of_next hnext
      exact hactive k _ hold rfl ((hw.join k hold).resolve_right (hstop k hold hk))

omit [DecidableEq Tid] [DecidableEq K] in
/-- The stacks are in the bus and in the abandoned loops. -/
theorem stacks_congr (hbus : s'.bus = s.bus) (habandoned : s'.abandoned = s.abandoned) :
    s'.stacks = s.stacks := by
  have hbase : s'.base = s.base := by
    funext t
    match t with
    | .worker =>
        show s'.bus.worker.inCallback = s.bus.worker.inCallback
        rw [hbus]
    | .caller (.inl _) => rfl
    | .caller (.inr n) =>
        show (s'.abandoned n).inCallback = (s.abandoned n).inCallback
        rw [habandoned]
  rw [Framework.stacks, Framework.stacks, hbase, hbus]

/-- An unsubscribe that a move has brought to its wait is made outside every callback. -/
theorem alone_of_unsubscribe {b : Bus (Caller Tid) K} {k : K} {a : Nat} (hs : s.Threaded)
    (h : Move s.bus act b) (hturn : Turn Outsider s.stacks act s'.stacks) (hbus : s'.bus = b)
    (hk : s.bus.calls k = .notStarted)
    (hk' : b.calls k = .unsubscribeWait a ∨ b.calls k = .unsubscribeFree a) :
    s'.stacks.Alone k := by
  have hfresh : s.stacks.status k = .fresh := congrArg CallState.status hk
  have hactive : s'.stacks.status k = .active := by
    show (s'.bus.calls k).status = .active
    rw [hbus]
    rcases hk' with hk' | hk' <;> rw [hk'] <;> rfl
  rcases h.opened hk with hold | ⟨call, ret, out, hret⟩ | ⟨t, call, rfl, hopens⟩
  · rcases hk' with hk' | hk' <;> rw [hold] at hk' <;> cases hk'
  · rcases hk' with hk' | hk' <;> rw [hret] at hk' <;> cases hk'
  · refine hturn.alone_of_enter hs.nested hfresh hactive fun hin => ?_
    have hpos : 0 < (s.bus.locals t).callbackDepth := (hs.nested.depth_pos_iff t).mpr hin
    have hzero : (s.bus.locals t).callbackDepth = 0 := by
      cases call with
      | start => rcases hk' with hk' | hk' <;> rw [hk'] at hopens <;> cases hopens
      | stop => rcases hk' with hk' | hk' <;> rw [hk'] at hopens <;> cases hopens
      | subscribe _ _ _ _ _ => exact hopens.elim
      | unsubscribe subscription =>
          cases subscription with
          | none => exact hopens.elim
          | some _ => exact hopens.1
      | publishSync _ _ _ =>
          obtain ⟨d, firstError, heq, -⟩ := hopens
          rcases hk' with hk' | hk' <;> rw [hk'] at heq <;> cases heq
      | publishAsync _ _ _ _ => exact hopens.elim
    omega

/-- A join that succeeds is not made by the worker. -/
theorem joined_not_worker {b : Bus (Caller Tid) K} {k : K} (hs : s.Threaded)
    (h : Move s.bus act b) (hk : s.bus.calls k = .stopJoin) (hk' : b.calls k = .stopWait) :
    k ∉ s.bus.stack .worker := by
  have hjoined : ∃ t rest, t ≠ .worker ∧ s.bus.stack t = k :: rest := by
    have hupdate : ∀ k₀ st, st ≠ .stopWait → Function.update s.bus.calls k₀ st k ≠ .stopWait := by
      intro k₀ st hst
      by_cases hkk : k = k₀
      · subst hkk
        rw [Function.update_self]
        exact hst
      · rw [Function.update_of_ne hkk, hk]
        exact fun h => nomatch h
    cases h with
    | waited => rw [hk] at hk'; cases hk'
    | answered _ => exact absurd hk' (hupdate _ _ fun h => nomatch h)
    | @entered t k₀ st g log call hk₀ _ =>
        have hne : k ≠ k₀ := by
          rintro rfl
          rw [hk] at hk₀
          cases hk₀
        have hsame : Function.update s.bus.calls k₀ st k = .stopWait := hk'
        rw [Function.update_of_ne hne, hk] at hsame
        cases hsame
    | @advanced t k₀ rest st g _ hadv =>
        refine absurd hk' (hupdate k₀ st ?_)
        rintro rfl
        generalize s.bus.calls k₀ = st₀ at hadv
        cases hadv
    | created _ _ _ => exact absurd hk' (hupdate _ _ fun h => nomatch h)
    | @joined t k₀ rest g hstack hk₀ hne _ =>
        by_cases hkk : k = k₀
        · subst hkk
          exact ⟨t, rest, hne, hstack⟩
        · have hsame : Function.update s.bus.calls k₀ .stopWait k = .stopWait := hk'
          rw [Function.update_of_ne hkk, hk] at hsame
          cases hsame
    | calledBack _ _ _ _ => exact absurd hk' (hupdate _ _ fun h => nomatch h)
    | resumed _ _ _ => exact absurd hk' (hupdate _ _ fun h => nomatch h)
    | left _ _ => exact absurd hk' (hupdate _ _ fun h => nomatch h)
    | looped _ _ =>
        have hsame : s.bus.calls k = .stopWait := hk'
        rw [hk] at hsame
        cases hsame
  obtain ⟨t, rest, hne, hstack⟩ := hjoined
  intro hmem
  exact hne (hs.nested.disjoint t .worker k
    (show k ∈ s.bus.stack t by rw [hstack]; exact List.mem_cons_self) hmem)

theorem BusMove.waitsAlone (h : BusMove s s') (hs : s.Threaded) (hw : s.WaitsAlone) :
    s'.WaitsAlone := by
  cases h with
  | @bus m b hmove henter _ hopen =>
      have hturn := move_turn hmove fun t hact => (henter t hact).1
      refine hw.turn hturn hmove.calls (fun k a hk hk' => ?_) (fun k hk hk' => ?_)
        fun k hk hk' => ?_
      · exact alone_of_unsubscribe hs hmove hturn rfl hk hk'
      · exact absurd (Or.inl hk') (hopen k hk).2
      · exact joined_not_worker hs hmove hk hk'
  | @looped m n g w tls log hstack hloops _ =>
      have hturn : Turn Outsider s.stacks m (s.looped n g w tls log).stacks := by
        rw [looped_stacks]
        exact loops_turn (v := s.stacks) hloops hstack rfl rfl
      refine hw.turn hturn (fun k => Or.inl rfl) (fun k a hk hk' => ?_) (fun k hk hk' => ?_)
        fun k hk hk' => ?_
      · have hsame : s.bus.calls k = .unsubscribeWait a ∨ s.bus.calls k = .unsubscribeFree a := hk'
        rcases hsame with hsame | hsame <;> rw [hk] at hsame <;> cases hsame
      · have hsame : s.bus.calls k = .stopJoin := hk'
        rw [hk] at hsame
        cases hsame
      · have hsame : s.bus.calls k = .stopWait := hk'
        rw [hk] at hsame
        cases hsame
  | @abandoned k b hk hmove =>
      -- no stop is in progress while a thread is created
      have hno : ∀ k', ¬ Stopping (s.bus.calls k') := by
        intro k' hk'
        obtain ⟨f, hf, hpoint⟩ := hs.starting k (Or.inl hk)
        obtain ⟨f', hf', hpoint'⟩ := hs.stopping k' hk'
        obtain rfl := Option.some.inj (hf.symm.trans hf')
        rw [hpoint] at hpoint'
        cases hpoint'
      have hw' : s.abandon.WaitsAlone := by
        refine ⟨fun k' a hk' => ?_, fun k' hk' => absurd (Or.inl hk') (hno k'),
          fun k' hk' => absurd (Or.inr hk') (hno k')⟩
        rw [abandon_stacks]
        exact (hw.unsubscribe k' a hk').rename
      have hturn := move_turn (s := s.abandon) hmove fun _ hact => nomatch hact
      refine hw'.turn hturn hmove.calls (fun k' a hk' hk'' => ?_) (fun k' hk' hk'' => ?_)
        fun k' hk' _ => ?_
      · exact alone_of_unsubscribe hs.abandon hmove hturn rfl hk' hk''
      · exact absurd (Or.inl hk'') (move_opens_nothing hmove (fun _ hact => nomatch hact) hk').2
      · exact absurd (Or.inl hk') (hno k')

/-- Every step that stops the bus outside the callbacks keeps the waiting calls alone. -/
theorem next_waitsAlone {a : CoreAction Tid K} (hs : s.Threaded) (hw : s.WaitsAlone)
    (hstops : StopsOutside s a) (h : next s a = some s') : s'.WaitsAlone := by
  cases next_move hs h with
  | bus hmove => exact hmove.waitsAlone hs hw
  | @called f k call _ ha hf hplace hk hout hbegin habandoned =>
      subst ha
      have hsame : s'.stacks = ({ s with bus := s'.bus } : Framework Tid K).stacks :=
        stacks_congr rfl habandoned
      rcases Event.begin_opens hbegin with ⟨ret, out, g, log, heq⟩ | ⟨st, g, log, hopens, heq⟩
      · have hmove : Move s.bus .library s'.bus := by
          rw [heq]
          exact Move.answered hk
        have hturn := move_turn hmove fun _ hact => nomatch hact
        rw [← hsame] at hturn
        refine hw.turn hturn hmove.calls (fun k' a hk' hk'' => ?_) (fun k' hk' hk'' => ?_)
          fun k' hk' hk'' => ?_
        · exact alone_of_unsubscribe hs hmove hturn rfl hk' hk''
        · exact absurd (Or.inl hk'') (move_opens_nothing hmove (fun _ hact => nomatch hact) hk').2
        · exact joined_not_worker hs hmove hk' hk''
      · have hmove : Move s.bus (.enters f.thread) s'.bus := by
          rw [heq]
          exact Move.entered hk hopens
        have hturn := move_turn hmove fun t hact => Act.enters.inj hact ▸ hout
        rw [← hsame] at hturn
        refine hw.turn hturn hmove.calls (fun k' a hk' hk'' => ?_) (fun k' hk' hk'' => ?_)
          fun k' hk' hk'' => ?_
        · exact alone_of_unsubscribe hs hmove hturn rfl hk' hk''
        · -- the stop of the entry point: on the worker, or outside the callbacks
          have hcalls : Function.update s.bus.calls k st k' = .stopJoin := by
            rw [heq] at hk''
            exact hk''
          have hkk : k' = k := by
            by_contra hne
            rw [Function.update_of_ne hne, hk'] at hcalls
            cases hcalls
          subst hkk
          rw [Function.update_self] at hcalls
          subst hcalls
          rcases hplace with ⟨-, rfl⟩ | ⟨hpoint, rfl⟩
          · cases hopens
          · have hrun := Event.running_of_begin_stop hbegin hk''
            rcases hstops f hf hpoint hrun with hworker | hdepth
            · refine Or.inr ?_
              rw [heq, ← hworker]
              show k' ∈ Function.update s.bus.stack f.thread (k' :: s.bus.stack f.thread) f.thread
              rw [Function.update_self]
              exact List.mem_cons_self
            · refine Or.inl (hturn.alone_of_enter hs.nested (congrArg CallState.status hk) ?_
                fun hin => ?_)
              · show (s'.bus.calls k').status = .active
                rw [hk'']
                rfl
              · have hpos := (hs.nested.depth_pos_iff f.thread).mpr hin
                have hzero : s.stacks.depth f.thread = 0 := hdepth
                omega
        · exact joined_not_worker hs hmove hk' hk''
  | still hbus habandoned =>
      have hstacks := stacks_congr hbus habandoned
      refine ⟨fun k a hk => ?_, fun k hk => ?_, fun k hk => ?_⟩
      · rw [hbus] at hk
        rw [hstacks]
        exact hw.unsubscribe k a hk
      · rw [hbus] at hk ⊢
        rw [hstacks]
        exact hw.join k hk
      · rw [hbus] at hk
        rw [hstacks]
        exact hw.stop k hk

/-! ## Runs -/

/-- The runs in which no stop is made inside a callback, except by the worker. -/
def stopsOutsideMachine (Tid K : Type*) [DecidableEq Tid] [DecidableEq K] :
    Machine (Framework Tid K) (CoreAction Tid K) :=
  (coreMachine Tid K).restrict fun s a _ => StopsOutside s a

theorem waitsAlone_of_reachable (h : (stopsOutsideMachine Tid K).Reachable s) :
    s.Threaded ∧ s.WaitsAlone := by
  refine h.invariant (I := fun s => s.Threaded ∧ s.WaitsAlone) ?_ fun u a v hu hstep => ?_
  · rintro s rfl
    exact ⟨zero_threaded, ⟨fun k a hk => (by rcases hk with hk | hk <;> cases hk),
      fun k hk => (by cases hk), fun k hk => (by cases hk)⟩⟩
  · obtain ⟨hs, hw⟩ := hu
    exact ⟨next_threaded hs hstep.1, next_waitsAlone hs hw hstep.2 hstep.1⟩

/-- An unsubscribe on a thread of positive depth is refused. -/
theorem begin_unsubscribe_of_depth_pos {b s' : Bus (Caller Tid) K} {t : Thread (Caller Tid)} {k : K}
    {subscription : Option Nat} (hdepth : 0 < (b.locals t).callbackDepth)
    (h : Event.begin b t k (.unsubscribe subscription) = some s') :
    ∃ ret, ret ≠ .ok ∧ s' = b.setCall k (.returned (.unsubscribe subscription) ret none) := by
  cases Event.begin_cases h with
  | unsubscribeRefused hret => exact ⟨_, hret, rfl⟩
  | unsubscribed hzero _ _ =>
      rw [hzero] at hdepth
      cases hdepth

/-- No thread waits for a callback it is executing.  An unsubscribe made inside a callback is
    refused, and a stop made inside a callback is refused by its join. -/
theorem no_self_wait (h : (stopsOutsideMachine Tid K).Reachable s) :
    (∀ t, ¬ s.WaitsForItself t) ∧
    ∀ t a, s.Executing t a →
      (∀ k subscription s', next s (.bus (.call t k (.unsubscribe subscription))) = some s' →
        ∃ ret, ret ≠ .ok ∧ s' = { s with
          bus := s.bus.setCall k (.returned (.unsubscribe subscription) ret none) }) ∧
      ∀ k rest ret s', s.bus.stack t = k :: rest → s.bus.calls k = .stopJoin →
        next s (.bus (.join t ret)) = some s' →
        ∃ err, err ≠ .ok ∧ s' = { s with bus := s.bus.leave t k .stop err } := by
  obtain ⟨hs, hw⟩ := waitsAlone_of_reachable h
  refine ⟨?_, fun t a hexec => ⟨?_, ?_⟩⟩
  · rintro t ⟨k, rest, a, hstack, hwaits, hexec⟩
    have hmem : k ∈ s.bus.stack t := by rw [hstack]; exact List.mem_cons_self
    have hactive : (s.bus.calls k).status = .active := by
      rcases hwaits with hk | ⟨hk, -⟩ <;> rw [hk] <;> rfl
    have halone : s.stacks.Alone k := by
      rcases hwaits with hk | ⟨hk, -⟩
      · exact hw.unsubscribe k a (Or.inl hk)
      · exact hw.stop k hk
    exact not_inCallback_of_alone halone hmem (by rw [hactive]; decide) hexec.inCallback
  · intro k subscription s' hstep
    simp only [next, busStep] at hstep
    split at hstep
    · obtain ⟨b, hb, rfl⟩ := Option.map_eq_some_iff.mp hstep
      simp only [Event.next] at hb
      split at hb
      · obtain ⟨ret, hret, rfl⟩ := begin_unsubscribe_of_depth_pos (hexec.depth_pos hs) hb
        exact ⟨ret, hret, rfl⟩
      · cases hb
    · cases hstep
  · intro k rest ret s' hstack hk hstep
    have hmem : k ∈ s.bus.stack t := by rw [hstack]; exact List.mem_cons_self
    -- the stop is not alone on its thread, so the thread is the worker
    have hworker : t = .worker := by
      rcases hw.join k hk with halone | hmem'
      · have hactive : (s.bus.calls k).status = .active := by rw [hk]; rfl
        exact absurd hexec.inCallback
          (not_inCallback_of_alone halone hmem (by rw [hactive]; decide))
      · exact hs.nested.disjoint t .worker k hmem hmem'
    subst hworker
    obtain ⟨b, hb, rfl⟩ := Option.map_eq_some_iff.mp hstep
    simp only [Event.next, Event.join, hstack, hk] at hb
    split at hb
    · exact ⟨.invalidParam, by decide, by rw [← Option.some.inj hb]⟩
    · rw [if_true] at hb
      exact ⟨.busy, by decide, by rw [← Option.some.inj hb]⟩

end Steps

/-- A thread starts the framework, subscribes, publishes, and is called back. -/
def publishRun : List (CoreAction Unit Nat) :=
  [.init (.caller (.inl ())), .busCall 0, .bus (.threadCreate (.caller (.inl ())) .ok),
    .bus (.proceed (.caller (.inl ()))), .busReturned false, .componentsReturned .ok, .finish,
    .bus (.call (.caller (.inl ())) 1 (.subscribe 7 5 0 true true)),
    .bus (.call (.caller (.inl ())) 2 (.publishSync 7 none 0)),
    .bus (.proceed (.caller (.inl ())))]

/-- An unsubscribe inside the callback. -/
theorem no_self_wait_publish :
    ∃ s s' : Framework Unit Nat, s.Executing (.caller (.inl ())) 1 ∧
      (∀ t, ¬ s.WaitsForItself t) ∧
      next s (.bus (.call (.caller (.inl ())) 3 (.unsubscribe (some 1)))) = some s' ∧
      ∃ ret, ret ≠ .ok ∧ s' = { s with
        bus := s.bus.setCall 3 (.returned (.unsubscribe (some 1)) ret none) } := by
  have hallowed : Machine.Along next StopsOutside (Framework.zero Unit Nat) publishRun := by
    refine ⟨trivial, fun u hu => ⟨fun f hf hp => ?_, fun _ _ => ⟨trivial, fun _ _ => ⟨trivial,
      fun _ _ => ⟨trivial, fun _ _ => ⟨trivial, fun _ _ => ⟨trivial, fun _ _ => ⟨trivial,
      fun _ _ => ⟨trivial, fun _ _ => ⟨trivial, fun _ _ => trivial⟩⟩⟩⟩⟩⟩⟩⟩⟩⟩
    obtain rfl := Option.some.inj hu
    obtain rfl := Option.some.inj hf
    cases hp
  have hexec : ∃ s s', Machine.exec next (Framework.zero Unit Nat) publishRun = some s ∧
      next s (.bus (.call (.caller (.inl ())) 3 (.unsubscribe (some 1)))) = some s' ∧
      s.bus.stack (.caller (.inl ())) = [2] ∧ ∃ d firstError,
        s.bus.calls 2 = .publishing d firstError ∧ d.phase = .running ∧
          d.pending.head? = some 1 :=
    ⟨_, _, rfl, rfl, rfl, _, _, rfl, rfl, rfl⟩
  obtain ⟨s, s', hexec, hstep, hstack, d, firstError, hcall, hphase, hhead⟩ := hexec
  have hreach : (stopsOutsideMachine Unit Nat).Reachable s :=
    ⟨_, _, rfl, Machine.Run.of_exec_along hexec hallowed⟩
  have hin : s.Executing (.caller (.inl ())) 1 :=
    Or.inl ⟨2, by rw [hstack]; exact List.mem_cons_self, d, firstError, hcall, hphase, hhead⟩
  obtain ⟨hnever, hrefused⟩ := no_self_wait hreach
  exact ⟨s, s', hin, hnever, hstep, (hrefused _ 1 hin).1 3 (some 1) s' hstep⟩

/-- A shutdown inside the callback: its stop goes past the join and waits for the callback. -/
theorem self_wait_shutdown :
    ¬ ∀ s : Framework Unit Nat, (coreMachine Unit Nat).Reachable s →
      ∀ t, ¬ s.WaitsForItself t := by
  intro hclaim
  have hexec : ∃ s, Machine.exec next (Framework.zero Unit Nat) (publishRun ++
      [.shutdown (.caller (.inl ())), .componentsReturned .ok, .busCall 3,
        .bus (.proceed .worker), .bus (.join (.caller (.inl ())) 0)]) = some s ∧
      s.bus.stack (.caller (.inl ())) = [3, 2] ∧ s.bus.calls 3 = .stopWait ∧
      s.bus.globals.subscribers = [1] ∧ ∃ d firstError,
        s.bus.calls 2 = .publishing d firstError ∧ d.phase = .running ∧
          d.pending.head? = some 1 :=
    ⟨_, rfl, rfl, rfl, rfl, _, _, rfl, rfl, rfl⟩
  obtain ⟨s, hexec, hstack, hwait, hsubs, d, firstError, hcall, hphase, hhead⟩ := hexec
  refine hclaim s ⟨_, _, rfl, Machine.Run.of_exec hexec⟩ (.caller (.inl ()))
    ⟨3, [2], 1, hstack, Or.inr ⟨hwait, by rw [hsubs]; exact List.mem_cons_self⟩, Or.inl ?_⟩
  exact ⟨2, by rw [hstack]; exact List.mem_cons_of_mem _ List.mem_cons_self, d, firstError, hcall,
    hphase, hhead⟩

end Core
end AppCore
