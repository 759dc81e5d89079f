/-
  AppCore.Core.Lone

  The framework with one thread of the application.  It calls the two entry points outside
  the callbacks of the bus, one after the other, and the only thread beside it is the
  worker.  Then nothing breaks the isolation of the sessions.
-/

import AppCore.Core.Sessions

namespace AppCore
namespace Core

open Event (Bus Thread WorkerLoop CallState Call)

variable {K : Type*}

/-- The thread of the application. -/
def mainThread : Thread (Caller Unit) := .caller (.inl ())

/-- The entry points are called outside the bus, and `pthread_join` succeeds. -/
def Lone (s : Framework Unit K) : CoreAction Unit K → Prop
  | .init t => t = mainThread ∧ s.bus.stack mainThread = []
  | .shutdown t => t = mainThread ∧ s.bus.stack mainThread = []
  | .bus (.join _ ret) => ret = 0
  | _ => True

/-- What holds while there is one thread of the application. -/
structure Framework.Alone (s : Framework Unit K) : Prop where
  sessioned : s.Sessioned
  placed : s.stacks.Placed
  frame : ∀ f, s.frame = some f → f.thread = mainThread ∧ f.depth = 0
  starting : ∀ k, s.bus.calls k = .starting → s.bus.globals.subscribers = [] ∧
    s.bus.globals.queueCount = 0 ∧ ∀ k, (s.bus.calls k).refs = []

/-! ## Where the threads are -/

section Threads

variable {s s' : Framework Unit K} {f : Frame Unit K} {k : K} {t : Thread (Caller Unit)}

/-- Without a worker there is no thread but the one of the application. -/
theorem Framework.Alone.base_eq_false (h : s.Alone) (hworker : s.bus.worker = .absent)
    (ht : t ≠ mainThread) : ¬ Outsider t ∧ s.stacks.base t = false := by
  match t with
  | .worker =>
      refine ⟨fun hfree => hfree, ?_⟩
      show s.bus.worker.inCallback = false
      rw [hworker]
      rfl
  | .caller (.inl ()) => exact absurd rfl ht
  | .caller (.inr n) =>
      refine ⟨fun hfree => hfree, ?_⟩
      show (s.abandoned n).inCallback = false
      rw [h.sessioned.sole n]
      rfl

theorem Framework.Alone.stack_nil (h : s.Alone) (hworker : s.bus.worker = .absent)
    (ht : t ≠ mainThread) : s.bus.stack t = [] := by
  obtain ⟨hfree, hbase⟩ := h.base_eq_false hworker ht
  exact h.sessioned.threaded.nested.stack_nil_of_base hfree hbase

/-- In a call of the bus the entry point is in no other. -/
theorem Framework.Alone.stack_main (h : s.Alone) (hf : s.frame = some f)
    (hpoint : f.point = .inBusStart k ∨ f.point = .inBusStop k)
    (hlive : (s.bus.calls k).status ≠ .over) : s.bus.stack mainThread = [k] := by
  obtain ⟨hthread, hdepth⟩ := h.frame f hf
  rcases (h.sessioned.threaded.frame f hf).call k hpoint with ⟨-, rest, hstack, hlen⟩ | ⟨hover, -⟩
  · rw [hdepth] at hlen
    rw [List.length_eq_zero_iff.mp hlen, hthread] at hstack
    exact hstack
  · exact absurd hover hlive

/-- Then there is no other call at all, if there is no worker. -/
theorem Framework.Alone.eq_of_live (h : s.Alone) (hworker : s.bus.worker = .absent)
    (hstack : s.bus.stack mainThread = [k]) {k' : K}
    (hlive : (s.bus.calls k').status = .active) : k' = k := by
  obtain ⟨t, ht⟩ := h.placed k' (Or.inl hlive)
  have ht : k' ∈ s.bus.stack t := ht
  by_cases hmain : t = mainThread
  · rw [hmain, hstack] at ht
    exact List.mem_singleton.mp ht
  · rw [h.stack_nil hworker hmain] at ht
    exact (List.not_mem_nil ht).elim

variable [DecidableEq K]

/-- Nobody runs code of the application while the entry point runs its own and there is no
    worker. -/
theorem Framework.Alone.not_inUserCode (h : s.Alone) (hworker : s.bus.worker = .absent)
    (hf : s.frame = some f) (hpoint : f.point ≠ .components) : ¬ s.inUserCode t = true := by
  intro hcode
  obtain ⟨hout, hfree⟩ := outside_of_inUserCode hcode
  by_cases hmain : t = mainThread
  · exact hpoint (hfree f hf ((h.frame f hf).1.trans hmain.symm))
  · obtain ⟨hinside, hbase⟩ := h.base_eq_false hworker hmain
    have hnil : s.stacks.stack t = [] := h.stack_nil hworker hmain
    rw [Reentry.Stacks.Outside, hnil] at hout
    rcases hout with hout | hout
    · exact hinside hout
    · rw [hbase] at hout
      cases hout

/-! ## Live calls -/

theorem BusMove.placed (h : BusMove s s') (hs : s.Threaded) (hplaced : s.stacks.Placed) :
    s'.stacks.Placed := by
  cases h with
  | bus hmove henter _ _ =>
      exact (move_turn hmove fun t hact => (henter t hact).1).placed hplaced
  | @looped m n g w tls log hstack hloops _ =>
      have hturn : Reentry.Turn Outsider s.stacks m (s.looped n g w tls log).stacks := by
        rw [looped_stacks]
        exact loops_turn (v := s.stacks) hloops hstack rfl rfl
      exact hturn.placed hplaced
  | abandoned _ hmove =>
      have hnil : s.stacks.stack (.caller (.inr s.abandonedCount)) = [] := by
        apply hs.nested.stack_nil_of_base
        · exact fun hfree => hfree
        · show (s.abandoned s.abandonedCount).inCallback = false
          rw [hs.vacant _ (le_refl _)]
          rfl
      have hrenamed : s.abandon.stacks.Placed := by
        rw [abandon_stacks]
        exact hplaced.rename hnil
      exact (move_turn hmove fun _ hact => nomatch hact).placed hrenamed

/-- The entry point enters the bus. -/
theorem begin_placed {b : Bus (Caller Unit) K} {call : Call} (hs : s.Threaded)
    (hplaced : s.stacks.Placed) (hf : s.frame = some f)
    (hplace : f.point = .busStart ∨ f.point = .busStop) (hk : s.bus.calls k = .notStarted)
    (h : Event.begin s.bus f.thread k call = some b) :
    ({ s with bus := b } : Framework Unit K).stacks.Placed := by
  have hout := (hs.frame f hf).outside hplace
  rcases Event.begin_opens h with ⟨ret, out, g, log, rfl⟩ | ⟨st, g, log, hopens, rfl⟩
  · exact (move_turn (.answered hk) fun _ hact => nomatch hact).placed hplaced
  · refine (move_turn (.entered hk hopens) fun t hact => ?_).placed hplaced
    obtain rfl := Reentry.Act.enters.inj hact
    exact hout

/-! ## The creation of the worker -/

/-- While the worker is being created nothing else happens. -/
theorem Framework.Alone.starting_step (h : s.Alone) {a : Event.Action (Caller Unit) K}
    (hk : s.bus.calls k = .starting) (hstep : busStep s a = some s') :
    ∃ t ret, a = .threadCreate t ret ∧
      s'.bus.calls k = if ret ≠ .ok then .returned .start ret none else .storing := by
  obtain ⟨f, hf, hpoint⟩ := h.sessioned.threaded.starting k (Or.inl hk)
  have hworker : s.bus.worker = .absent := (h.sessioned.sound.shaped.startable k hk).1
  have hlive : (s.bus.calls k).status ≠ .over := by
    rw [hk]
    intro heq
    cases heq
  -- one thread is in the start, and nobody is anywhere else
  have hmain := h.stack_main hf (Or.inl hpoint) hlive
  have hother : ∀ t, t ≠ mainThread → s.bus.stack t = [] := fun t => h.stack_nil hworker
  have huser : ∀ t, ¬ s.inUserCode t = true := by
    intro t
    apply h.not_inUserCode hworker hf
    rw [hpoint]
    intro heq
    cases heq
  -- so the call that a step belongs to is the start
  have honly : ∀ t k' rest, s.bus.stack t = k' :: rest → t = mainThread ∧ k' = k := by
    intro t k' rest hstack
    by_cases ht : t = mainThread
    · rw [ht, hmain] at hstack
      exact ⟨ht, (List.cons.inj hstack).1.symm⟩
    · rw [hother t ht] at hstack
      cases hstack
  obtain ⟨b, hb, rfl⟩ := busStep_next h.sessioned hstep
  cases a with
  | call t k' call =>
      simp only [busStep] at hstep
      split at hstep
      · rename_i hcan
        exact absurd hcan.2 (huser t)
      · cases hstep
  | proceed t =>
      rcases Event.proceed_cases hb with ⟨k', rest, hstack, hb⟩ | ⟨-, -, hb⟩
      · -- the start waits for the result of the creation
        obtain ⟨-, rfl⟩ := honly t k' rest hstack
        simp only [Event.proceedCall, hk] at hb
        cases hb
      · simp only [Event.proceedWorker, hworker] at hb
        cases hb
  | callbackReturn t ret =>
      cases Event.callbackReturn_cases hb with
      | call hstack hcall _ =>
          obtain ⟨-, rfl⟩ := honly t _ _ hstack
          rw [hk] at hcall
          cases hcall
      | worker _ hw _ =>
          rw [hworker] at hw
          cases hw
  | threadCreate t ret =>
      cases Event.threadCreate_cases hb with
      | failed hstack _ hret =>
          obtain ⟨rfl, rfl⟩ := honly t _ _ hstack
          refine ⟨mainThread, ret, rfl, ?_⟩
          rw [if_pos hret]
          exact Function.update_self ..
      | created hstack _ hret =>
          obtain ⟨rfl, rfl⟩ := honly t _ _ hstack
          refine ⟨mainThread, ret, rfl, ?_⟩
          rw [if_neg (not_not_intro hret)]
          exact Function.update_self ..
  | join t ret =>
      have hjoin : ∃ k' rest, s.bus.stack t = k' :: rest ∧ s.bus.calls k' = .stopJoin := by
        cases Event.join_cases hb with
        | noThread hstack hcall _ => exact ⟨_, _, hstack, hcall⟩
        | itself hstack hcall _ _ => exact ⟨_, _, hstack, hcall⟩
        | failed hstack hcall _ _ _ => exact ⟨_, _, hstack, hcall⟩
        | joined hstack hcall _ _ _ _ => exact ⟨_, _, hstack, hcall⟩
      obtain ⟨k', rest, hstack, hcall⟩ := hjoin
      obtain ⟨-, rfl⟩ := honly t k' rest hstack
      rw [hk] at hcall
      cases hcall

omit [DecidableEq K] in
/-- A call that is about to create the worker has begun with that step. -/
theorem notStarted_of_next {st : CallState} (h : st.Next .starting) : st = .notStarted := by
  cases h with
  | opened _ => rfl
  | advanced hadv => cases hadv

/-- A step of the bus does not begin a start. -/
theorem Framework.Alone.busStep_not_starting (h : s.Alone) {a : Event.Action (Caller Unit) K}
    (hstep : busStep s a = some s') : s'.bus.calls k ≠ .starting := by
  intro hk
  have hold : s.bus.calls k ≠ .starting := by
    intro hold
    obtain ⟨t, ret, -, hcall⟩ := h.starting_step hold hstep
    rw [hk] at hcall
    split at hcall
    · cases hcall
    · cases hcall
  have hnew : ∀ b : Bus (Caller Unit) K,
      (b.calls k = s.bus.calls k ∨ (s.bus.calls k).Next (b.calls k)) → b.calls k = .starting →
      s.bus.calls k = .notStarted := by
    rintro b (hsame | hnext) hb
    · exact absurd (hsame.symm.trans hb) hold
    · rw [hb] at hnext
      exact notStarted_of_next hnext
  cases busStep_move hstep with
  | @bus m b hmove _ _ hopen => exact (hopen k (hnew b (hmove.calls k) hk)).1 (Or.inl hk)
  | looped _ _ _ => exact hold hk
  | @abandoned k' b _ hmove =>
      have hfresh := hnew b (hmove.calls k) hk
      exact (move_opens_nothing hmove (fun _ hact => nomatch hact) hfresh).1 (Or.inl hk)

/-- A start finds the bus empty. -/
theorem begin_start_empty {b : Bus (Caller Unit) K} {t : Thread (Caller Unit)}
    (hshut : s.bus.Shut) (h : Event.begin s.bus t k .start = some b) :
    b.globals.subscribers = [] ∧ b.globals.queueCount = 0 ∧ ∀ k, (b.calls k).refs = [] := by
  cases Event.begin_cases h with
  | startRefused hrun =>
      rw [hshut.stands.running] at hrun
      cases hrun
  | started _ =>
      refine ⟨hshut.subscribers, rfl, fun k' => ?_⟩
      show (Function.update s.bus.calls k CallState.starting k').refs = []
      by_cases hkk : k' = k
      · rw [hkk, Function.update_self]
        rfl
      · rw [Function.update_of_ne hkk]
        exact hshut.refs k'

end Threads

/-! ## Every step -/

section Steps

variable [DecidableEq K] {s s' : Framework Unit K} {f : Frame Unit K} {k : K}

/-- What one thread does keeps the sessions apart. -/
theorem Framework.Alone.isolates (h : s.Alone) {a : CoreAction Unit K} (hlone : Lone s a)
    (hstep : next s a = some s') : Isolates s a := by
  cases a with
  | busCall k =>
      intro f hf _ _ hworker
      rw [(h.frame f hf).1] at hworker
      cases hworker
  | bus a =>
      cases a with
      | threadCreate t ret =>
          intro _
          have hstep : busStep s (.threadCreate t ret) = some s' := hstep
          obtain ⟨b, hb, -⟩ := busStep_next h.sessioned hstep
          have hb : Event.threadCreate s.bus t ret = some b := hb
          obtain ⟨k, hk⟩ := Event.threadCreate_starting hb
          exact h.starting k hk
      | join t ret => exact hlone
      | proceed t =>
          -- a stop that waits is the only call
          intro k rest hstack hk _ k' a hk'
          obtain ⟨f, hf, hpoint⟩ := h.sessioned.threaded.stopping k (Or.inr hk)
          obtain ⟨hstage, -, -⟩ := (h.sessioned.stage f hf).at_inBusStop hpoint
          rw [hk] at hstage
          cases hstage with
          | waiting hstands _ =>
              have hlive : (s.bus.calls k).status ≠ .over := by
                rw [hk]
                intro heq
                cases heq
              have hmain := h.stack_main hf (Or.inr hpoint) hlive
              have hsame := h.eq_of_live (hstands.worker.mpr rfl) hmain
                (show (s.bus.calls k').status = .active by rw [hk']; rfl)
              rw [hsame, hk] at hk'
              cases hk'
      | call t k call => trivial
      | callbackReturn t ret => trivial
  | init t => trivial
  | shutdown t => trivial
  | busReturned unjoined => trivial
  | componentsReturned ret => trivial
  | finish => trivial

omit [DecidableEq K] in
/-- The entry point moves without the bus. -/
theorem Framework.Alone.moves {core : CoreState} {frame : Option (Frame Unit K)}
    {returned : Option (Entry × SysErr)} (h : s.Alone)
    (hsessioned : ({ s with core := core, frame := frame, returned := returned } :
      Framework Unit K).Sessioned)
    (hframe : ∀ f, frame = some f → f.thread = mainThread ∧ f.depth = 0) :
    ({ s with core := core, frame := frame, returned := returned } : Framework Unit K).Alone :=
  ⟨hsessioned, h.placed, hframe, h.starting⟩

omit [DecidableEq K] in
/-- The frame of the one thread, wherever the entry point goes. -/
theorem main_of_frame {f' : Frame Unit K} (h : f.thread = mainThread ∧ f.depth = 0)
    (hf : some f = some f') : f'.thread = mainThread ∧ f'.depth = 0 := by
  obtain rfl := Option.some.inj hf
  exact h

theorem busCall_alone (h : s.Alone) (hsessioned : s'.Sessioned)
    (hstep : next s (.busCall k) = some s') : s'.Alone := by
  have hthreaded := h.sessioned.threaded
  cases next_cases hstep with
  | @startCalled f _ b hf hpoint hk hb =>
      obtain ⟨-, hshut⟩ := (h.sessioned.stage f hf).at_busStart hpoint
      exact ⟨hsessioned, begin_placed hthreaded h.placed hf (Or.inl hpoint) hk hb,
        fun _ => main_of_frame (h.frame f hf), fun k' _ => begin_start_empty hshut hb⟩
  | @stopCalled f _ b hf hpoint hk hb =>
      refine ⟨hsessioned, begin_placed hthreaded h.placed hf (Or.inr hpoint) hk hb,
        fun _ => main_of_frame (h.frame f hf), fun k' hk' => ?_⟩
      -- the entry point is in a stop
      obtain ⟨f', hf', hpoint'⟩ := hsessioned.threaded.starting k' (Or.inl hk')
      obtain rfl := Option.some.inj hf'
      cases hpoint'

/-- Every step of the one thread, of its entry points and of the worker. -/
theorem next_alone {a : CoreAction Unit K} (h : s.Alone) (hlone : Lone s a)
    (hstep : next s a = some s') : s'.Alone := by
  have hsessioned := next_sessioned h.sessioned (h.isolates hlone hstep) hstep
  cases next_cases hstep with
  | bus hbus =>
      have hplaced := (busStep_move hbus).placed h.sessioned.threaded h.placed
      have hstarting : ∀ k, s'.bus.calls k ≠ .starting := fun k => h.busStep_not_starting hbus
      obtain ⟨b, -, rfl⟩ := busStep_next h.sessioned hbus
      exact ⟨hsessioned, hplaced, h.frame, fun k hk => absurd hk (hstarting k)⟩
  | init hcode =>
      obtain ⟨rfl, hnil⟩ := hlone
      unfold sysCoreInit at hsessioned ⊢
      split
      · rename_i hcore
        rw [if_pos hcore] at hsessioned
        exact h.moves hsessioned h.frame
      · rename_i hcore
        rw [if_neg hcore] at hsessioned
        -- it is called outside of all calls
        exact h.moves hsessioned fun _ => main_of_frame ⟨rfl, by rw [hnil]; rfl⟩
  | shutdown hcode =>
      obtain ⟨rfl, hnil⟩ := hlone
      unfold sysCoreShutdown at hsessioned ⊢
      split
      · rename_i hcore
        rw [if_pos hcore] at hsessioned
        exact h.moves hsessioned h.frame
      · rename_i hcore
        rw [if_neg hcore] at hsessioned
        exact h.moves hsessioned fun _ => main_of_frame ⟨rfl, by rw [hnil]; rfl⟩
  | startCalled _ _ _ _ => exact busCall_alone h hsessioned hstep
  | stopCalled _ _ _ _ => exact busCall_alone h hsessioned hstep
  | startReturned hf _ _ =>
      have hmain := h.frame _ hf
      exact h.moves hsessioned fun _ => main_of_frame hmain
  | stopReturned hf _ _ =>
      have hmain := h.frame _ hf
      exact h.moves hsessioned fun _ => main_of_frame hmain
  | passReturned hf _ _ =>
      have hmain := h.frame _ hf
      exact h.moves hsessioned fun _ => main_of_frame hmain
  | finished _ _ =>
      refine h.moves hsessioned fun f' hf' => ?_
      cases hf'

omit [DecidableEq K] in
theorem zero_alone : (Framework.zero Unit K).Alone := by
  refine ⟨zero_sessioned, fun k hk => ?_, (fun f hf => nomatch hf), fun k hk => nomatch hk⟩
  rcases hk with hk | hk <;> cases hk

end Steps

end Core
end AppCore
