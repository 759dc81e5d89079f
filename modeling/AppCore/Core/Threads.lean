/-
  AppCore.Core.Threads

  The threads of the framework, each with its stack of bus calls.  The stacks are nested
  as `Reentry` has it, and the thread of an entry point keeps the calls it was in.
-/

import AppCore.Core.System
import AppCore.Event.Threads

namespace AppCore
namespace Core

open Event (Bus Thread WorkerLoop CallState Call ThreadLocal Globals Move)
open Reentry (Act Turn Nested)

variable {Tid K : Type*}

/-! ## Stacks -/

/-- The threads of the application. -/
def Outsider : Thread (Caller Tid) → Prop
  | .caller (.inl _) => True
  | _ => False

/-- The loop of a worker is in a callback on this thread. -/
def Framework.base (s : Framework Tid K) : Thread (Caller Tid) → Bool
  | .worker => s.bus.worker.inCallback
  | .caller (.inr n) => (s.abandoned n).inCallback
  | .caller (.inl _) => false

/-- The bus calls of the threads. -/
def Framework.stacks (s : Framework Tid K) : Reentry.Stacks (Thread (Caller Tid)) K where
  status := fun k => (s.bus.calls k).status
  stack := s.bus.stack
  base := s.base
  depth := fun t => (s.bus.locals t).callbackDepth

/-- In `sys_event_bus_start`. -/
def Starting (st : CallState) : Prop := st = .starting ∨ st = .storing

/-- In `sys_event_bus_stop`. -/
def Stopping (st : CallState) : Prop := st = .stopJoin ∨ st = .stopWait

theorem Starting.status {st : CallState} (h : Starting st) : st.status = .active := by
  rcases h with rfl | rfl <;> rfl

theorem Stopping.status {st : CallState} (h : Stopping st) : st.status = .active := by
  rcases h with rfl | rfl <;> rfl

/-- Without its bus calls since, the thread of an entry point is where it was called. -/
structure Framework.FrameOk (s : Framework Tid K) (f : Frame Tid K) : Prop where
  held : s.stacks.Held Outsider f.thread f.depth
  rest : f.point = .busStart ∨ f.point = .busStop ∨ f.point = .finish →
    (s.bus.stack f.thread).length = f.depth
  call : ∀ k, f.point = .inBusStart k ∨ f.point = .inBusStop k →
    ((f.point = .inBusStart k ∧ Starting (s.bus.calls k) ∨
        f.point = .inBusStop k ∧ Stopping (s.bus.calls k)) ∧
      ∃ rest, s.bus.stack f.thread = k :: rest ∧ rest.length = f.depth) ∨
    (s.bus.calls k).status = .over ∧ (s.bus.stack f.thread).length = f.depth

/-- What holds of the threads in every state. -/
structure Framework.Threaded (s : Framework Tid K) : Prop where
  nested : Nested Outsider s.stacks
  frame : ∀ f, s.frame = some f → s.FrameOk f
  idle : s.core = .stopped ∨ s.core = .running → s.frame = none
  starting : ∀ k, Starting (s.bus.calls k) → ∃ f, s.frame = some f ∧ f.point = .inBusStart k
  stopping : ∀ k, Stopping (s.bus.calls k) → ∃ f, s.frame = some f ∧ f.point = .inBusStop k
  vacant : ∀ n, s.abandonedCount ≤ n → s.abandoned n = .absent

variable [DecidableEq Tid] [DecidableEq K]

/-! ## Moves are turns -/

omit [DecidableEq Tid] in
theorem status_update (calls : K → CallState) (k : K) (st : CallState) :
    (fun k' => (Function.update calls k st k').status) =
      Function.update (fun k' => (calls k').status) k st.status :=
  Function.comp_update CallState.status calls k st

omit [DecidableEq K] in
theorem depth_update (locals : Thread (Caller Tid) → ThreadLocal) (t : Thread (Caller Tid))
    (tls : ThreadLocal) :
    (fun t' => (Function.update locals t tls t').callbackDepth) =
      Function.update (fun t' => (locals t').callbackDepth) t tls.callbackDepth :=
  Function.comp_update ThreadLocal.callbackDepth locals t tls

/-- The changes of a worker's loop, on the stacks. -/
theorem loops_turn {free : Thread (Caller Tid) → Prop} {t : Thread (Caller Tid)}
    {w w' : WorkerLoop K} {tls tls' : ThreadLocal} {act : Act (Thread (Caller Tid))}
    {v : Reentry.Stacks (Thread (Caller Tid)) K} (h : WorkerLoop.Loops t w tls act w' tls')
    (hstack : v.stack t = []) (hbase : v.base t = w.inCallback)
    (hdepth : v.depth t = tls.callbackDepth) :
    Turn free v act { v with
      base := Function.update v.base t w'.inCallback
      depth := Function.update v.depth t tls'.callbackDepth } := by
  cases h with
  | advanced hw hw' _ _ =>
      rw [hw', ← hw, ← hbase, ← hdepth, Function.update_eq_self, Function.update_eq_self]
      exact Turn.same
  | calledBack hw hphase _ =>
      subst hw
      have hout : v.base t = false := by
        rw [hbase]
        show decide _ = false
        rw [hphase]
        rfl
      have hturn : Turn free v .library _ := Turn.baseCallback hstack hout
      rw [hdepth] at hturn
      exact hturn
  | @resumed k d ret hw hphase =>
      subst hw
      have hin : v.base t = true := by
        rw [hbase]
        exact decide_eq_true hphase
      have hout : (WorkerLoop.delivering k (d.returned ret)).inCallback = false :=
        decide_eq_false (Event.Delivery.returned_phase d ret)
      have hturn : Turn free v (.resumes t) _ := Turn.baseResume hstack hin
      rw [hdepth] at hturn
      rw [hout]
      exact hturn

section Moves

variable {s s' : Framework Tid K} {b : Bus (Caller Tid) K} {act : Act (Thread (Caller Tid))}
  {t : Thread (Caller Tid)} {k : K}

omit [DecidableEq K] in
theorem base_update (s : Framework Tid K) (b : Bus (Caller Tid) K) :
    ({ s with bus := b } : Framework Tid K).base =
      Function.update s.base .worker b.worker.inCallback := by
  funext t
  cases t with
  | worker => rw [Function.update_self]; rfl
  | caller u =>
      have hne : (Thread.caller u : Thread (Caller Tid)) ≠ .worker := by simp
      rw [Function.update_of_ne hne]
      cases u with
      | inl _ => rfl
      | inr _ => rfl

/-- A turn that leaves the loop of the worker alone. -/
theorem turn_of {status : K → Reentry.Status} {stack : Thread (Caller Tid) → List K}
    {depth : Thread (Caller Tid) → Nat} (hstatus : (fun k => (b.calls k).status) = status)
    (hstack : b.stack = stack) (hdepth : (fun t => (b.locals t).callbackDepth) = depth)
    (hworker : b.worker.inCallback = s.bus.worker.inCallback)
    (hturn : Turn Outsider s.stacks act
      { s.stacks with status := status, stack := stack, depth := depth }) :
    Turn Outsider s.stacks act ({ s with bus := b } : Framework Tid K).stacks := by
  have hbase : ({ s with bus := b } : Framework Tid K).base = s.base := by
    rw [base_update, hworker]
    exact Function.update_eq_self ..
  subst hstatus hstack hdepth
  rw [show ({ s with bus := b } : Framework Tid K).stacks =
    ⟨fun k => (b.calls k).status, b.stack, ({ s with bus := b } : Framework Tid K).base,
      fun t => (b.locals t).callbackDepth⟩ from rfl, hbase]
  exact hturn

/-- A move of the bus is a turn of the stacks. -/
theorem move_turn (h : Move s.bus act b)
    (hout : ∀ t, act = .enters t → s.stacks.Outside Outsider t) :
    Turn Outsider s.stacks act ({ s with bus := b } : Framework Tid K).stacks := by
  have hsame : ∀ k st, st.status = (s.bus.calls k).status →
      (fun k' => (Function.update s.bus.calls k st k').status) =
        fun k' => (s.bus.calls k').status := by
    intro k st hst
    rw [status_update]
    exact Function.update_eq_self_iff.mpr hst
  cases h with
  | waited => exact Turn.same
  | answered hk =>
      refine turn_of (status_update ..) rfl rfl rfl ?_
      exact Turn.answer (congrArg CallState.status hk)
  | @entered t k st g log call hk hopens =>
      refine turn_of (status_update ..) rfl rfl rfl ?_
      rw [hopens.status]
      exact Turn.enter (hout t rfl) (congrArg CallState.status hk)
  | @advanced t k rest st g hstack hadv =>
      -- the call stays in the code of the bus
      have hst : st.status = (s.bus.calls k).status := by
        generalize s.bus.calls k = st₀ at hadv ⊢
        cases hadv with
        | publishing hphase hphase' =>
            rw [CallState.status, CallState.status, if_neg hphase, if_neg hphase']
        | unsubscribe => rfl
      exact turn_of (hsame k st hst) rfl rfl rfl Turn.same
  | @created t k rest g hstack hk hworker =>
      have hno : s.bus.worker.inCallback = false := by
        rw [hworker]
        rfl
      refine turn_of (hsame k .storing (congrArg CallState.status hk).symm) rfl
        (depth_update ..) hno.symm ?_
      exact Turn.renew (fun hfree => hfree) hno
  | @joined t k rest g hstack hk _ hworker =>
      have hno : s.bus.worker.inCallback = false := by
        rw [hworker]
        rfl
      exact turn_of (hsame k .stopWait (congrArg CallState.status hk).symm) rfl rfl hno.symm
        Turn.same
  | @calledBack t k rest d firstError a g log hstack hk hphase _ =>
      refine turn_of (status_update ..) rfl (depth_update ..) rfl ?_
      refine Turn.callback hstack ?_
      show (s.bus.calls k).status = .active
      rw [hk, CallState.status, hphase, if_neg (by decide)]
  | @resumed t k rest d firstError firstError' ret log hstack hk hphase =>
      have hstatus : CallState.status (.publishing (d.returned ret) firstError') = .active :=
        if_neg (Event.Delivery.returned_phase d ret)
      refine turn_of (status_update ..) rfl (depth_update ..) rfl ?_
      rw [hstatus]
      refine Turn.resume hstack ?_
      show (s.bus.calls k).status = .inCallback
      rw [hk, CallState.status, if_pos hphase]
  | left hstack hk =>
      refine turn_of (status_update ..) rfl rfl rfl ?_
      exact Turn.leave hstack hk
  | @looped act w tls g log hstack hloops =>
      have hturn : Turn Outsider s.stacks _ _ := loops_turn hloops hstack rfl rfl
      have heq : ({ s with bus := ⟨g, w, s.bus.calls, s.bus.stack,
          Function.update s.bus.locals .worker tls, s.bus.syncLog, log⟩ } :
          Framework Tid K).stacks = { s.stacks with
            base := Function.update s.stacks.base .worker w.inCallback
            depth := Function.update s.stacks.depth .worker tls.callbackDepth } := by
        rw [Framework.stacks, base_update, depth_update]
        rfl
      rw [heq]
      exact hturn

end Moves

/-! ## Calls of the entry points -/

omit [DecidableEq K] in
/-- A call that has returned does not change. -/
theorem next_over {st st' : CallState} (h : st.Next st') : st.status ≠ .over := by
  intro hover
  cases h with
  | answered => cases hover
  | opened _ => cases hover
  | advanced hadv =>
      cases hadv with
      | publishing hphase _ => rw [CallState.status, if_neg hphase] at hover; cases hover
      | unsubscribe => cases hover
  | created => cases hover
  | joined => cases hover
  | calledBack hphase =>
      rw [CallState.status, hphase, if_neg (by decide)] at hover
      cases hover
  | resumed hphase =>
      rw [CallState.status, if_pos hphase] at hover
      cases hover
  | left hactive => rw [hactive] at hover; cases hover

/-- A start goes on as a start, or returns. -/
theorem starting_next {st st' : CallState} (h : st.Next st') (hst : Starting st) :
    Starting st' ∨ st'.status = .over := by
  cases h with
  | answered => exact Or.inr rfl
  | opened _ => rcases hst with hst | hst <;> cases hst
  | advanced hadv => cases hadv <;> rcases hst with hst | hst <;> cases hst
  | created => exact Or.inl (Or.inr rfl)
  | joined => rcases hst with hst | hst <;> cases hst
  | calledBack _ => rcases hst with hst | hst <;> cases hst
  | resumed _ => rcases hst with hst | hst <;> cases hst
  | left _ => exact Or.inr rfl

/-- A stop goes on as a stop, or returns. -/
theorem stopping_next {st st' : CallState} (h : st.Next st') (hst : Stopping st) :
    Stopping st' ∨ st'.status = .over := by
  cases h with
  | answered => exact Or.inr rfl
  | opened _ => rcases hst with hst | hst <;> cases hst
  | advanced hadv => cases hadv <;> rcases hst with hst | hst <;> cases hst
  | created => rcases hst with hst | hst <;> cases hst
  | joined => exact Or.inl (Or.inr rfl)
  | calledBack _ => rcases hst with hst | hst <;> cases hst
  | resumed _ => rcases hst with hst | hst <;> cases hst
  | left _ => exact Or.inr rfl

/-- Only a call that was not made before, or a start, can become a start. -/
theorem starting_of_next {st st' : CallState} (h : st.Next st') (hst : Starting st') :
    st = .notStarted ∨ Starting st := by
  cases h with
  | answered => exact Or.inl rfl
  | opened _ => exact Or.inl rfl
  | advanced hadv => cases hadv <;> rcases hst with hst | hst <;> cases hst
  | created => exact Or.inr (Or.inl rfl)
  | joined => rcases hst with hst | hst <;> cases hst
  | calledBack _ => rcases hst with hst | hst <;> cases hst
  | resumed _ => rcases hst with hst | hst <;> cases hst
  | left _ => rcases hst with hst | hst <;> cases hst

theorem stopping_of_next {st st' : CallState} (h : st.Next st') (hst : Stopping st') :
    st = .notStarted ∨ Stopping st := by
  cases h with
  | answered => exact Or.inl rfl
  | opened _ => exact Or.inl rfl
  | advanced hadv => cases hadv <;> rcases hst with hst | hst <;> cases hst
  | created => rcases hst with hst | hst <;> cases hst
  | joined => exact Or.inr (Or.inl rfl)
  | calledBack _ => rcases hst with hst | hst <;> cases hst
  | resumed _ => rcases hst with hst | hst <;> cases hst
  | left _ => rcases hst with hst | hst <;> cases hst

/-! ## Steps -/

section Steps

variable {s s' : Framework Tid K} {act : Act (Thread (Caller Tid))} {f : Frame Tid K}

omit [DecidableEq Tid] [DecidableEq K] in
/-- The thread is back where it has called the entry point. -/
theorem Framework.FrameOk.outside_of_length (hf : s.FrameOk f)
    (hlen : (s.bus.stack f.thread).length = f.depth) : s.stacks.Outside Outsider f.thread := by
  apply Reentry.Stacks.Held.outside
  show s.stacks.Held Outsider f.thread (s.bus.stack f.thread).length
  rw [hlen]
  exact hf.held

omit [DecidableEq Tid] [DecidableEq K] in
/-- So it is before each call of the bus. -/
theorem Framework.FrameOk.outside (hf : s.FrameOk f)
    (hpoint : f.point = .busStart ∨ f.point = .busStop) : s.stacks.Outside Outsider f.thread :=
  hf.outside_of_length (hf.rest (hpoint.imp id Or.inl))

/-- A turn keeps the entry point where it is. -/
theorem Framework.FrameOk.turn (hf : s.FrameOk f) (hnested : Nested Outsider s.stacks)
    (hturn : Turn Outsider s.stacks act s'.stacks)
    (hcalls : ∀ k, s'.bus.calls k = s.bus.calls k ∨ (s.bus.calls k).Next (s'.bus.calls k))
    (henter : act = .enters f.thread → f.point = .components)
    (hresume : act = .resumes f.thread → f.depth < (s.bus.stack f.thread).length) :
    s'.FrameOk f := by
  have hstill : (s.bus.stack f.thread).length = f.depth → f.point ≠ .components →
      s'.bus.stack f.thread = s.bus.stack f.thread := by
    intro hlen hpoint
    refine (hturn.outside hnested (hf.outside_of_length hlen)
      (fun hact => hpoint (henter hact)) fun hact => ?_).1
    have hlt := hresume hact
    omega
  constructor
  · exact hturn.held hnested hf.held hresume
  · intro hpoint
    rw [hstill (hf.rest hpoint)]
    · exact hf.rest hpoint
    · rintro hcomp
      rw [hcomp] at hpoint
      rcases hpoint with h | h | h <;> cases h
  · intro k hpoint
    have hne : f.point ≠ .components := by
      intro hcomp
      rw [hcomp] at hpoint
      rcases hpoint with h | h <;> cases h
    rcases hf.call k hpoint with ⟨hkind, rest, hstack, hlen⟩ | ⟨hover, hlen⟩
    · -- the call is in progress
      have hkind' : (f.point = .inBusStart k ∧ Starting (s'.bus.calls k) ∨
          f.point = .inBusStop k ∧ Stopping (s'.bus.calls k)) ∨
          (s'.bus.calls k).status = .over := by
        rcases hcalls k with hsame | hnext
        · rw [hsame]
          exact Or.inl hkind
        · rcases hkind with ⟨hp, hst⟩ | ⟨hp, hst⟩
          · exact (starting_next hnext hst).imp (fun h => Or.inl ⟨hp, h⟩) id
          · exact (stopping_next hnext hst).imp (fun h => Or.inr ⟨hp, h⟩) id
      have hactive : (s.bus.calls k).status = .active := by
        rcases hkind with ⟨-, hst⟩ | ⟨-, hst⟩
        · exact hst.status
        · exact hst.status
      rcases hturn.top hnested hstack hactive with ⟨hstack', hst'⟩ | ⟨hstack', hover⟩
      · refine Or.inl ⟨hkind'.resolve_right fun hover => ?_, rest, hstack', hlen⟩
        have hnot : (s'.bus.calls k).status = .active ∨ (s'.bus.calls k).status = .inCallback :=
          hst'
        rw [hover] at hnot
        rcases hnot with h | h <;> cases h
      · exact Or.inr ⟨hover, (congrArg List.length hstack').trans hlen⟩
    · refine Or.inr ⟨?_, by rw [hstill hlen hne]; exact hlen⟩
      rcases hcalls k with hsame | hnext
      · rw [hsame]
        exact hover
      · exact absurd hover (next_over hnext)

/-- A turn outside the entry points. -/
theorem Framework.Threaded.turn (hs : s.Threaded)
    (hturn : Turn Outsider s.stacks act s'.stacks)
    (hcalls : ∀ k, s'.bus.calls k = s.bus.calls k ∨ (s.bus.calls k).Next (s'.bus.calls k))
    (hopen : ∀ k, s.bus.calls k = .notStarted →
      ¬ Starting (s'.bus.calls k) ∧ ¬ Stopping (s'.bus.calls k))
    (hframe : s'.frame = s.frame) (hcore : s'.core = s.core)
    (henter : ∀ f, s.frame = some f → act = .enters f.thread → f.point = .components)
    (hresume : ∀ f, s.frame = some f → act = .resumes f.thread →
      f.depth < (s.bus.stack f.thread).length)
    (hvacant : ∀ n, s'.abandonedCount ≤ n → s'.abandoned n = .absent) : s'.Threaded := by
  constructor
  · exact hturn.nested hs.nested
  · intro f hf
    rw [hframe] at hf
    exact (hs.frame f hf).turn hs.nested hturn hcalls (henter f hf) (hresume f hf)
  · intro hst
    rw [hframe]
    rw [hcore] at hst
    exact hs.idle hst
  · intro k hk
    rw [hframe]
    rcases hcalls k with hsame | hnext
    · rw [hsame] at hk
      exact hs.starting k hk
    · rcases starting_of_next hnext hk with hnew | hold
      · exact absurd hk (hopen k hnew).1
      · exact hs.starting k hold
  · intro k hk
    rw [hframe]
    rcases hcalls k with hsame | hnext
    · rw [hsame] at hk
      exact hs.stopping k hk
    · rcases stopping_of_next hnext hk with hnew | hold
      · exact absurd hk (hopen k hnew).2
      · exact hs.stopping k hold
  · exact hvacant

/-! ### Steps of the bus -/

omit [DecidableEq Tid] [DecidableEq K] in
theorem abandonedLoop_eq_some {t : Thread (Caller Tid)} {n : Nat}
    (h : s.abandonedLoop t = some n) : t = .caller (.inr n) ∧ s.bus.stack t = [] := by
  unfold Framework.abandonedLoop at h
  split at h
  · split at h
    · rename_i hstack
      obtain rfl := Option.some.inj h
      exact ⟨rfl, hstack⟩
    · cases h
  · cases h

/-- Whoever runs code of the application is outside the bus, and no entry point blocks it. -/
theorem outside_of_inUserCode {t : Thread (Caller Tid)} (h : s.inUserCode t = true) :
    s.stacks.Outside Outsider t ∧ ∀ f, s.frame = some f → f.thread = t → f.point = .components := by
  unfold Framework.inUserCode at h
  obtain ⟨hcode, hfree⟩ := Bool.and_eq_true_iff.mp h
  constructor
  · cases hloop : s.abandonedLoop t with
    | some n =>
        obtain ⟨rfl, hstack⟩ := abandonedLoop_eq_some hloop
        rw [hloop] at hcode
        have hbase : (s.abandoned n).inCallback = true := by
          simp only [Bus.inUserCode, Framework.view, Function.update_self] at hcode
          split at hcode
          · rename_i k d hw
            rw [hw]
            exact hcode
          · cases hcode
        show s.stacks.OutsideOn Outsider _ (s.bus.stack (.caller (.inr n)))
        rw [hstack]
        exact Or.inr hbase
    | none =>
        rw [hloop] at hcode
        change s.bus.inUserCode t = true at hcode
        show s.stacks.OutsideOn Outsider t (s.bus.stack t)
        unfold Bus.inUserCode at hcode
        split at hcode
        · rename_i k rest hstack
          rw [hstack]
          show (s.bus.calls k).status = .inCallback
          split at hcode
          · rename_i d firstError hk
            rw [hk]
            exact if_pos (of_decide_eq_true hcode)
          · cases hcode
        · rename_i hstack
          rw [hstack]
          split at hcode
          · rename_i u
            cases u with
            | inl u => exact Or.inl trivial
            | inr n =>
                -- an abandoned worker outside every call is in its own loop
                rw [Framework.abandonedLoop, if_pos hstack] at hloop
                cases hloop
          · refine Or.inr ?_
            split at hcode
            · rename_i k d hw
              show s.bus.worker.inCallback = true
              rw [hw]
              exact hcode
            · cases hcode
  · intro f hf hthread
    rw [hf] at hfree
    simpa [Frame.blocks, hthread] using hfree

theorem Framework.Threaded.move {b : Bus (Caller Tid) K} (hs : s.Threaded)
    (h : Move s.bus act b) (hout : ∀ t, act = .enters t → s.stacks.Outside Outsider t)
    (hopen : ∀ k, s.bus.calls k = .notStarted →
      ¬ Starting (b.calls k) ∧ ¬ Stopping (b.calls k))
    (henter : ∀ f, s.frame = some f → act = .enters f.thread → f.point = .components)
    (hresume : ∀ f, s.frame = some f → act = .resumes f.thread →
      f.depth < (s.bus.stack f.thread).length) :
    ({ s with bus := b } : Framework Tid K).Threaded :=
  hs.turn (move_turn h hout) h.calls hopen rfl rfl henter hresume hs.vacant

/-- A move that is not the entry of a thread opens no call. -/
theorem move_opens_nothing {b : Bus (Caller Tid) K} {k : K} (h : Move s.bus act b)
    (hact : ∀ t, act ≠ .enters t) (hk : s.bus.calls k = .notStarted) :
    ¬ Starting (b.calls k) ∧ ¬ Stopping (b.calls k) := by
  rcases h.opened hk with hk' | ⟨call, ret, out, hk'⟩ | ⟨t, call, ht, -⟩
  · rw [hk']
    simp [Starting, Stopping]
  · rw [hk']
    simp [Starting, Stopping]
  · exact absurd ht (hact t)

omit [DecidableEq K] in
/-- A thread that is not waiting in an entry point is in more calls than it was in there. -/
theorem Framework.Threaded.above_of_not_inEntry (hs : s.Threaded) (hf : s.frame = some f)
    (hentry : s.inEntry f.thread = false) : f.depth < (s.bus.stack f.thread).length := by
  obtain ⟨upper, lower, hstack, hlen, -⟩ := (hs.frame f hf).held
  have hne : f.depth ≠ (s.bus.stack f.thread).length := by
    simpa [Framework.inEntry, hf] using hentry
  have hlen' : (s.bus.stack f.thread).length = upper.length + lower.length := by
    rw [show s.bus.stack f.thread = upper ++ lower from hstack, List.length_append]
  omega

/-! ### Steps of abandoned workers -/

/-- The framework when the loop of the abandoned worker `n` has changed to `w`. -/
def Framework.looped (s : Framework Tid K) (n : Nat) (g : Globals K) (w : WorkerLoop K)
    (tls : ThreadLocal) (log : List (K × Event.Obs)) : Framework Tid K :=
  { s with
    bus := { s.bus with
      globals := g
      locals := Function.update s.bus.locals (.caller (.inr n)) tls
      asyncLog := log }
    abandoned := Function.update s.abandoned n w }

omit [DecidableEq K] in
theorem view_locals (s : Framework Tid K) (n : Nat) :
    (s.view n).locals .worker = s.bus.locals (.caller (.inr n)) :=
  Function.update_self (.worker : Thread (Caller Tid)) _ s.bus.locals

omit [DecidableEq K] in
theorem view_stack (s : Framework Tid K) (n : Nat) : (s.view n).stack .worker = [] :=
  Function.update_self (.worker : Thread (Caller Tid)) _ s.bus.stack

omit [DecidableEq K] in
theorem unview_view (s : Framework Tid K) (n : Nat) (g : Globals K) (w : WorkerLoop K)
    (tls : ThreadLocal) (log : List (K × Event.Obs)) :
    s.unview n { s.view n with
      globals := g, worker := w
      locals := Function.update (s.view n).locals .worker tls
      asyncLog := log } = s.looped n g w tls log := by
  simp [Framework.unview, Framework.view, Framework.looped]

omit [DecidableEq K] in
theorem looped_stacks (s : Framework Tid K) (n : Nat) (g : Globals K) (w : WorkerLoop K)
    (tls : ThreadLocal) (log : List (K × Event.Obs)) :
    (s.looped n g w tls log).stacks =
      { s.stacks with
        base := Function.update s.stacks.base (.caller (.inr n)) w.inCallback
        depth := Function.update s.stacks.depth (.caller (.inr n)) tls.callbackDepth } := by
  have hbase : (s.looped n g w tls log).base =
      Function.update s.base (.caller (.inr n)) w.inCallback := by
    funext t
    by_cases ht : t = .caller (.inr n)
    · subst ht
      rw [Function.update_self]
      show (Function.update s.abandoned n w n).inCallback = _
      rw [Function.update_self]
    · rw [Function.update_of_ne ht]
      match t with
      | .worker => rfl
      | .caller (.inl _) => rfl
      | .caller (.inr m) =>
          have hm : m ≠ n := by
            rintro rfl
            exact ht rfl
          show (Function.update s.abandoned n w m).inCallback = _
          rw [Function.update_of_ne hm]
          rfl
  have hdepth : (fun t => ((s.looped n g w tls log).bus.locals t).callbackDepth) =
      Function.update s.stacks.depth (.caller (.inr n)) tls.callbackDepth := depth_update ..
  rw [Framework.stacks, hbase, hdepth]
  rfl

theorem Framework.Threaded.loops {n : Nat} {g : Globals K} {w : WorkerLoop K} {tls : ThreadLocal}
    {log : List (K × Event.Obs)} (hs : s.Threaded)
    (hstack : s.bus.stack (.caller (.inr n)) = [])
    (h : WorkerLoop.Loops (.caller (.inr n)) (s.abandoned n) (s.bus.locals (.caller (.inr n))) act
      w tls)
    (hresume : act = .resumes (.caller (.inr n)) → s.inEntry (.caller (.inr n)) = false) :
    (s.looped n g w tls log).Threaded := by
  have hturn : Turn Outsider s.stacks act (s.looped n g w tls log).stacks := by
    rw [looped_stacks]
    exact loops_turn (v := s.stacks) h hstack rfl rfl
  have hlive : s.abandoned n ≠ .absent := by
    cases h with
    | advanced _ _ hne _ => exact hne
    | calledBack hw _ _ => rw [hw]; exact fun h => nomatch h
    | resumed hw _ => rw [hw]; exact fun h => nomatch h
  have hact : act = .library ∨ act = .resumes (.caller (.inr n)) := by
    cases h with
    | advanced _ _ _ _ => exact Or.inl rfl
    | calledBack _ _ _ => exact Or.inl rfl
    | resumed _ _ => exact Or.inr rfl
  refine hs.turn hturn (fun k => Or.inl rfl) (fun k hk => ?_) rfl rfl
    (fun f hf hent => ?_) (fun f hf hres => ?_) fun n' hn' => ?_
  · show ¬ Starting (s.bus.calls k) ∧ ¬ Stopping (s.bus.calls k)
    rw [hk]
    simp [Starting, Stopping]
  · rcases hact with rfl | rfl <;> cases hent
  · rcases hact with rfl | hact
    · cases hres
    · have hentry := hresume hact
      rw [hact] at hres
      rw [Act.resumes.inj hres] at hentry
      exact hs.above_of_not_inEntry hf hentry
  · have hm : n' ≠ n := by
      rintro rfl
      exact hlive (hs.vacant n' hn')
    show Function.update s.abandoned n w n' = .absent
    rw [Function.update_of_ne hm]
    exact hs.vacant n' hn'

/-! ### The worker is abandoned -/

omit [DecidableEq K] in
/-- The worker goes on under its new name. -/
theorem abandon_stacks (s : Framework Tid K) :
    s.abandon.stacks = s.stacks.rename .worker (.caller (.inr s.abandonedCount)) := by
  have hbase : s.abandon.base = Function.update (Function.update s.base
      (.caller (.inr s.abandonedCount)) (s.base .worker)) .worker false := by
    funext t
    match t with
    | .worker => rw [Function.update_self]; rfl
    | .caller (.inl u) => simp [Framework.base]
    | .caller (.inr n) =>
        rw [Function.update_of_ne (by simp)]
        by_cases hn : n = s.abandonedCount
        · subst hn
          rw [Function.update_self]
          show (Function.update s.abandoned s.abandonedCount s.bus.worker
            s.abandonedCount).inCallback = _
          rw [Function.update_self]
          rfl
        · rw [Function.update_of_ne (by simpa using hn)]
          show (Function.update s.abandoned s.abandonedCount s.bus.worker n).inCallback = _
          rw [Function.update_of_ne hn]
          rfl
  have hdepth : (fun t => (s.abandon.bus.locals t).callbackDepth) =
      Function.update (Function.update s.stacks.depth (.caller (.inr s.abandonedCount))
        (s.stacks.depth .worker)) .worker 0 := by
    show (fun t => (Function.update (Function.update s.bus.locals
      (.caller (.inr s.abandonedCount)) (s.bus.locals .worker)) .worker {} t).callbackDepth) = _
    rw [depth_update, depth_update]
    rfl
  rw [Framework.stacks, hbase, hdepth]
  rfl

omit [DecidableEq K] in
/-- Nothing but the name of the worker changes. -/
theorem Framework.Threaded.abandon (hs : s.Threaded) : s.abandon.Threaded := by
  have hbase : s.stacks.base (.caller (.inr s.abandonedCount)) = false := by
    show (s.abandoned s.abandonedCount).inCallback = false
    rw [hs.vacant _ (le_refl _)]
    rfl
  have hfree : ¬ Outsider (Thread.worker : Thread (Caller Tid)) := fun h => h
  have hfree' : ¬ Outsider (Thread.caller (.inr s.abandonedCount) : Thread (Caller Tid)) :=
    fun h => h
  have hnil := hs.nested.stack_nil_of_base hfree' hbase
  have hne : (Thread.worker : Thread (Caller Tid)) ≠ .caller (.inr s.abandonedCount) := by simp
  have hframes : ∀ f, s.abandon.frame = some f → ∃ f₀, s.frame = some f₀ ∧
      f = { f₀ with thread := s.renamed f₀.thread } := by
    intro f hf
    obtain ⟨f₀, hf₀, rfl⟩ := Option.map_eq_some_iff.mp hf
    exact ⟨f₀, hf₀, rfl⟩
  -- the callbacks of the worker are now those of the abandoned thread
  have hrenamed : ∀ t,
      s.renamed t = if t = .worker then .caller (.inr s.abandonedCount) else t := by
    intro t
    cases t with
    | worker => rfl
    | caller u => simp [Framework.renamed]
  constructor
  · rw [abandon_stacks s]
    exact hs.nested.rename hne hfree hfree' hbase
  · intro f hf
    obtain ⟨f₀, hf₀, rfl⟩ := hframes f hf
    have hok := hs.frame f₀ hf₀
    have hheld := hok.held.rename hne hfree hnil hfree' hbase
    have hstack : s.abandon.bus.stack (s.renamed f₀.thread) = s.bus.stack f₀.thread := by
      show Function.update (Function.update s.bus.stack (s.renamed .worker)
        (s.bus.stack .worker)) .worker [] (s.renamed f₀.thread) = _
      cases hthread : f₀.thread with
      | worker => exact (Function.update_of_ne (Ne.symm hne) ..).trans (Function.update_self ..)
      | caller u =>
          have hu : (Thread.caller u : Thread (Caller Tid)) ≠ .caller (.inr s.abandonedCount) := by
            intro heq
            have hheld₀ := hok.held
            rw [hthread, heq] at hheld₀
            rw [hheld₀.base_eq_true hnil hfree'] at hbase
            cases hbase
          have hworker : (Thread.caller u : Thread (Caller Tid)) ≠ .worker := by simp
          exact (Function.update_of_ne hworker ..).trans (Function.update_of_ne hu ..)
    constructor
    · rw [abandon_stacks s]
      show (s.stacks.rename _ _).Held Outsider (s.renamed f₀.thread) f₀.depth
      rw [hrenamed]
      exact hheld
    · intro hpoint
      show (s.abandon.bus.stack (s.renamed f₀.thread)).length = f₀.depth
      rw [hstack]
      exact hok.rest hpoint
    · intro k hpoint
      have hcall := hok.call k hpoint
      rw [← hstack] at hcall
      exact hcall
  · intro hst
    show s.frame.map _ = none
    rw [hs.idle hst]
    rfl
  · intro k hk
    obtain ⟨f, hf, hpoint⟩ := hs.starting k hk
    exact ⟨_, Option.map_eq_some_iff.mpr ⟨f, hf, rfl⟩, hpoint⟩
  · intro k hk
    obtain ⟨f, hf, hpoint⟩ := hs.stopping k hk
    exact ⟨_, Option.map_eq_some_iff.mpr ⟨f, hf, rfl⟩, hpoint⟩
  · intro n hn
    have hn : s.abandonedCount + 1 ≤ n := hn
    show Function.update s.abandoned s.abandonedCount s.bus.worker n = .absent
    rw [Function.update_of_ne (by omega)]
    exact hs.vacant n (by omega)

/-! ### Steps of the entry points -/

omit [DecidableEq Tid] [DecidableEq K] in
/-- Nothing is asked of the thread while its entry point is in the component pass. -/
theorem Framework.FrameOk.components (hheld : s.stacks.Held Outsider f.thread f.depth)
    (hpoint : f.point = .components) : s.FrameOk f := by
  refine ⟨hheld, fun h => ?_, fun k h => ?_⟩
  · rw [hpoint] at h
    rcases h with h | h | h <;> cases h
  · rw [hpoint] at h
    rcases h with h | h <;> cases h

omit [DecidableEq Tid] [DecidableEq K] in
/-- Nor more than its place between two calls. -/
theorem Framework.FrameOk.between (hheld : s.stacks.Held Outsider f.thread f.depth)
    (hlen : (s.bus.stack f.thread).length = f.depth)
    (hpoint : f.point = .busStart ∨ f.point = .busStop ∨ f.point = .finish) : s.FrameOk f := by
  refine ⟨hheld, fun _ => hlen, fun k h => ?_⟩
  rcases hpoint with hp | hp | hp <;> rw [hp] at h <;> rcases h with h | h <;> cases h

omit [DecidableEq Tid] [DecidableEq K] in
/-- An entry point that is not refused begins. -/
theorem Framework.Threaded.opened {entry : Entry} {t : Thread (Caller Tid)} {core : CoreState}
    {point : Point K} (hs : s.Threaded) (hout : s.stacks.Outside Outsider t)
    (hcore : s.core = .stopped ∨ s.core = .running) (hcore' : core ≠ .stopped ∧ core ≠ .running)
    (hpoint : point = .busStart ∨ point = .components) :
    ({ s with
      core := core
      frame := some ⟨entry, t, (s.bus.stack t).length, point, .ok⟩ } :
      Framework Tid K).Threaded := by
  have hnone := hs.idle hcore
  refine ⟨hs.nested, fun f hf => ?_, fun h => ?_, fun k hk => ?_, fun k hk => ?_, hs.vacant⟩
  · obtain rfl := Option.some.inj hf
    rcases hpoint with hp | hp
    · exact Framework.FrameOk.between hout.held rfl (Or.inl hp)
    · exact Framework.FrameOk.components hout.held hp
  · rcases h with h | h
    · exact absurd h hcore'.1
    · exact absurd h hcore'.2
  · obtain ⟨f, hf, -⟩ := hs.starting k hk
    rw [hnone] at hf
    cases hf
  · obtain ⟨f, hf, -⟩ := hs.stopping k hk
    rw [hnone] at hf
    cases hf

omit [DecidableEq Tid] [DecidableEq K] in
/-- A call of an entry point that is refused changes nothing. -/
theorem Framework.Threaded.refused {ret : Option (Entry × SysErr)} (hs : s.Threaded) :
    ({ s with returned := ret } : Framework Tid K).Threaded :=
  ⟨hs.nested, fun f hf => ⟨(hs.frame f hf).held, (hs.frame f hf).rest, (hs.frame f hf).call⟩,
    hs.idle, hs.starting, hs.stopping, hs.vacant⟩

omit [DecidableEq Tid] [DecidableEq K] in
/-- The entry point goes on to a place where it is in no call. -/
theorem Framework.Threaded.goesOn {ret : SysErr} {point : Point K} (hs : s.Threaded)
    (hf : s.frame = some f) (hlen : (s.bus.stack f.thread).length = f.depth)
    (hno : ∀ k, ¬ Starting (s.bus.calls k) ∧ ¬ Stopping (s.bus.calls k))
    (hpoint : point = .components ∨ point = .busStop ∨ point = .finish) :
    ({ s with frame := some { f with point := point, ret := ret } } :
      Framework Tid K).Threaded := by
  have hok := hs.frame f hf
  refine ⟨hs.nested, fun f' hf' => ?_, fun h => ?_, fun k hk => absurd hk (hno k).1,
    fun k hk => absurd hk (hno k).2, hs.vacant⟩
  · obtain rfl := Option.some.inj hf'
    rcases hpoint with hp | hp
    · exact Framework.FrameOk.components hok.held hp
    · exact Framework.FrameOk.between hok.held hlen (Or.inr hp)
  · have hnone := hs.idle h
    rw [hf] at hnone
    cases hnone

omit [DecidableEq Tid] [DecidableEq K] in
/-- Between its calls of the bus an entry point has no call in progress. -/
theorem Framework.Threaded.no_call (hs : s.Threaded) (hf : s.frame = some f)
    (hpoint : ∀ k, f.point = .inBusStart k ∨ f.point = .inBusStop k →
      (s.bus.calls k).status = .over) :
    ∀ k, ¬ Starting (s.bus.calls k) ∧ ¬ Stopping (s.bus.calls k) := by
  refine fun k => ⟨fun hk => ?_, fun hk => ?_⟩
  · obtain ⟨f', hf', hp⟩ := hs.starting k hk
    obtain rfl := Option.some.inj (hf.symm.trans hf')
    have hover := hpoint k (Or.inl hp)
    rw [hk.status] at hover
    cases hover
  · obtain ⟨f', hf', hp⟩ := hs.stopping k hk
    obtain rfl := Option.some.inj (hf.symm.trans hf')
    have hover := hpoint k (Or.inr hp)
    rw [hk.status] at hover
    cases hover

/-- The entry point calls the bus: `start` at `busStart`, and `stop` at `busStop`. -/
theorem Framework.Threaded.calls {b : Bus (Caller Tid) K} {k : K} {call : Call} {point : Point K}
    {first : Nat} (hs : s.Threaded) (hf : s.frame = some f)
    (hplace : f.point = .busStart ∨ f.point = .busStop)
    (hcall : call = .start ∧ point = .inBusStart k ∨ call = .stop ∧ point = .inBusStop k)
    (hk : s.bus.calls k = .notStarted) (h : Event.begin s.bus f.thread k call = some b) :
    ({ s with
      bus := b, frame := some { f with point := point }, firstSubscription := first } :
      Framework Tid K).Threaded := by
  have hok := hs.frame f hf
  have hlen := hok.rest (hplace.imp id Or.inl)
  have hout := hok.outside hplace
  have hno := hs.no_call hf fun k' hp => by
    rcases hplace with h | h <;> rw [h] at hp <;> rcases hp with hp | hp <;> cases hp
  have hidle : ¬ (s.core = .stopped ∨ s.core = .running) := by
    intro hcore
    have hnone := hs.idle hcore
    rw [hf] at hnone
    cases hnone
  have hpoint : point ≠ .busStart ∧ point ≠ .busStop ∧ point ≠ .finish := by
    rcases hcall with ⟨-, rfl⟩ | ⟨-, rfl⟩ <;> simp
  have hothers : ∀ k', point = .inBusStart k' ∨ point = .inBusStop k' → k' = k := by
    intro k' hp
    rcases hcall with ⟨-, rfl⟩ | ⟨-, rfl⟩ <;> rcases hp with hp | hp <;> cases hp <;> rfl
  rcases Event.begin_opens h with ⟨ret, out, g, log, rfl⟩ | ⟨st, g, log, hopens, rfl⟩
  · -- answered at once
    have hmove : Move s.bus .library
        ⟨g, s.bus.worker, Function.update s.bus.calls k (.returned call ret out), s.bus.stack,
          s.bus.locals, s.bus.syncLog, log⟩ := Move.answered hk
    have hturn := move_turn (s := s) hmove fun _ h => nomatch h
    have hnone : ∀ k', ¬ Starting (Function.update s.bus.calls k (.returned call ret out) k') ∧
        ¬ Stopping (Function.update s.bus.calls k (.returned call ret out) k') := by
      intro k'
      by_cases hkk : k' = k
      · rw [hkk, Function.update_self]
        simp [Starting, Stopping]
      · rw [Function.update_of_ne hkk]
        exact hno k'
    refine ⟨hturn.nested hs.nested, fun f' hf' => ?_, fun hcore => absurd hcore hidle,
      fun k' hk' => absurd hk' (hnone k').1, fun k' hk' => absurd hk' (hnone k').2, hs.vacant⟩
    obtain rfl := Option.some.inj hf'
    refine ⟨hturn.held hs.nested hok.held (fun h => nomatch h), fun hp => ?_, fun k' hp => ?_⟩
    · rcases hp with hp | hp | hp
      · exact absurd hp hpoint.1
      · exact absurd hp hpoint.2.1
      · exact absurd hp hpoint.2.2
    · obtain rfl := hothers k' hp
      refine Or.inr ⟨?_, hlen⟩
      show (Function.update s.bus.calls k' (.returned call ret out) k').status = .over
      rw [Function.update_self]
      rfl
  · -- the thread has entered the bus, in the frame's own call
    have hmove : Move s.bus (.enters f.thread)
        ⟨g, s.bus.worker, Function.update s.bus.calls k st,
          Function.update s.bus.stack f.thread (k :: s.bus.stack f.thread), s.bus.locals, log,
          s.bus.asyncLog⟩ := Move.entered hk hopens
    have hturn := move_turn hmove fun t ht => Act.enters.inj ht ▸ hout
    have hself : Function.update s.bus.calls k st k = st := Function.update_self ..
    have honly : ∀ k', Starting (Function.update s.bus.calls k st k') ∨
        Stopping (Function.update s.bus.calls k st k') → k' = k := by
      intro k' hk'
      by_contra hne
      rw [Function.update_of_ne hne] at hk'
      rcases hk' with hk' | hk'
      · exact (hno k').1 hk'
      · exact (hno k').2 hk'
    refine ⟨hturn.nested hs.nested, fun f' hf' => ?_, fun hcore => absurd hcore hidle,
      fun k' hk' => ?_, fun k' hk' => ?_, hs.vacant⟩
    · obtain rfl := Option.some.inj hf'
      refine ⟨hturn.held hs.nested hok.held (fun h => nomatch h), fun hp => ?_, fun k' hp => ?_⟩
      · rcases hp with hp | hp | hp
        · exact absurd hp hpoint.1
        · exact absurd hp hpoint.2.1
        · exact absurd hp hpoint.2.2
      · obtain rfl := hothers k' hp
        refine Or.inl ⟨?_, s.bus.stack f.thread, Function.update_self .., hlen⟩
        show point = .inBusStart k' ∧ Starting (Function.update s.bus.calls k' st k') ∨
          point = .inBusStop k' ∧ Stopping (Function.update s.bus.calls k' st k')
        rw [hself]
        rcases hcall with ⟨rfl, rfl⟩ | ⟨rfl, rfl⟩
        · exact Or.inl ⟨rfl, Or.inl hopens⟩
        · exact Or.inr ⟨rfl, Or.inl hopens⟩
    · obtain rfl := honly k' (Or.inl hk')
      have hst : Starting st := hself ▸ hk'
      rcases hcall with ⟨rfl, rfl⟩ | ⟨rfl, rfl⟩
      · exact ⟨_, rfl, rfl⟩
      · obtain rfl : st = .stopJoin := hopens
        rcases hst with hst | hst <;> cases hst
    · obtain rfl := honly k' (Or.inr hk')
      have hst : Stopping st := hself ▸ hk'
      rcases hcall with ⟨rfl, rfl⟩ | ⟨rfl, rfl⟩
      · obtain rfl : st = .starting := hopens
        rcases hst with hst | hst <;> cases hst
      · exact ⟨_, rfl, rfl⟩

/-! ### Every step -/

/-- The changes of a step of the bus. -/
inductive BusMove (s : Framework Tid K) : Framework Tid K → Prop
  | bus {m : Act (Thread (Caller Tid))} {b} : Move s.bus m b →
      (∀ t, m = .enters t → s.stacks.Outside Outsider t ∧
        ∀ f, s.frame = some f → f.thread = t → f.point = .components) →
      (∀ t, m = .resumes t → s.inEntry t = false) →
      (∀ k, s.bus.calls k = .notStarted → ¬ Starting (b.calls k) ∧ ¬ Stopping (b.calls k)) →
      BusMove s { s with bus := b }
  /-- The loop of an abandoned worker. -/
  | looped {m : Act (Thread (Caller Tid))} {n g w tls log} : s.bus.stack (.caller (.inr n)) = [] →
      WorkerLoop.Loops (.caller (.inr n)) (s.abandoned n) (s.bus.locals (.caller (.inr n))) m
        w tls →
      (m = .resumes (.caller (.inr n)) → s.inEntry (.caller (.inr n)) = false) →
      BusMove s (s.looped n g w tls log)
  /-- A worker is created while there is another one. -/
  | abandoned {k b} : s.bus.calls k = .starting → Move s.abandon.bus .library b →
      BusMove s { s.abandon with bus := b }

/-- A move of the bus's own. -/
theorem BusMove.library {b : Bus (Caller Tid) K} (h : Move s.bus .library b) :
    BusMove s { s with bus := b } :=
  BusMove.bus h (fun _ hact => nomatch hact) (fun _ hact => nomatch hact)
    fun _ => move_opens_nothing h fun _ hact => nomatch hact

theorem busStep_move {a : Event.Action (Caller Tid) K} (h : busStep s a = some s') :
    BusMove s s' := by
  cases a with
  | call t k call =>
      simp only [busStep] at h
      split at h
      · rename_i hcan
        obtain ⟨huser, hcode⟩ := hcan
        obtain ⟨b, hb, rfl⟩ := Option.map_eq_some_iff.mp h
        obtain ⟨hout, hfree⟩ := outside_of_inUserCode hcode
        simp only [Event.next] at hb
        split at hb
        · rename_i hfresh
          rcases Event.begin_opens hb with ⟨ret, out, g, log, rfl⟩ | ⟨st, g, log, hopens, rfl⟩
          · exact BusMove.library (Move.answered hfresh.2)
          · have hst : ¬ Starting st ∧ ¬ Stopping st := by
              -- the application does not call `start` or `stop`
              cases call with
              | start => cases huser
              | stop => cases huser
              | subscribe _ _ _ _ _ => exact hopens.elim
              | publishAsync _ _ _ _ => exact hopens.elim
              | publishSync _ _ _ =>
                  obtain ⟨d, firstError, rfl, -⟩ := hopens
                  simp [Starting, Stopping]
              | unsubscribe subscription =>
                  cases subscription with
                  | none => exact hopens.elim
                  | some a => rcases hopens.2 with rfl | rfl <;> simp [Starting, Stopping]
            refine BusMove.bus (Move.entered hfresh.2 hopens)
              (fun u hact => Act.enters.inj hact ▸ ⟨hout, hfree⟩) (fun _ hact => by cases hact)
              fun k' hk' => ?_
            show ¬ Starting (Function.update s.bus.calls k st k') ∧
              ¬ Stopping (Function.update s.bus.calls k st k')
            by_cases hkk : k' = k
            · rw [hkk, Function.update_self]
              exact hst
            · rw [Function.update_of_ne hkk, hk']
              simp [Starting, Stopping]
        · cases hb
      · cases h
  | proceed t =>
      simp only [busStep] at h
      split at h
      · rename_i n hloop
        obtain ⟨rfl, hstack⟩ := abandonedLoop_eq_some hloop
        obtain ⟨b, hb, rfl⟩ := Option.map_eq_some_iff.mp h
        obtain ⟨g, w, tls, log, hloops, rfl⟩ :=
          Event.proceedWorker_loops (.caller (.inr n)) hb
        rw [view_locals] at hloops
        rw [unview_view]
        exact BusMove.looped hstack hloops fun hact => by cases hact
      · obtain ⟨b, hb, rfl⟩ := Option.map_eq_some_iff.mp h
        exact BusMove.library (Event.proceed_move hb)
  | callbackReturn t ret =>
      simp only [busStep] at h
      split at h
      · cases h
      · rename_i hentry
        have hentry : s.inEntry t = false := by simpa using hentry
        split at h
        · rename_i n hloop
          obtain ⟨rfl, hstack⟩ := abandonedLoop_eq_some hloop
          obtain ⟨b, hb, rfl⟩ := Option.map_eq_some_iff.mp h
          obtain ⟨w, tls, hloops, rfl⟩ :=
            Event.callbackReturn_loops (.caller (.inr n)) (view_stack s n) hb
          rw [view_locals] at hloops
          have hmove : BusMove s (s.looped n s.bus.globals w tls s.bus.asyncLog) :=
            BusMove.looped hstack hloops fun _ => hentry
          rw [← unview_view] at hmove
          exact hmove
        · obtain ⟨b, hb, rfl⟩ := Option.map_eq_some_iff.mp h
          have hmove := Event.callbackReturn_move hb
          exact BusMove.bus hmove (fun _ hact => by cases hact)
            (fun u hact => Act.resumes.inj hact ▸ hentry)
            fun _ => move_opens_nothing hmove fun _ hact => by cases hact
  | threadCreate t ret =>
      simp only [busStep] at h
      split at h
      · obtain ⟨b, hb, rfl⟩ := Option.map_eq_some_iff.mp h
        obtain ⟨k, hk⟩ := Event.threadCreate_starting hb
        exact BusMove.abandoned hk (Event.threadCreate_move hb fun _ => rfl)
      · rename_i hcan
        obtain ⟨b, hb, rfl⟩ := Option.map_eq_some_iff.mp h
        refine BusMove.library (Event.threadCreate_move hb fun hret => ?_)
        by_contra hne
        exact hcan ⟨hret, hne⟩
  | join t ret =>
      obtain ⟨b, hb, rfl⟩ := Option.map_eq_some_iff.mp h
      exact BusMove.library (Event.join_move hb)

theorem BusMove.threaded (h : BusMove s s') (hs : s.Threaded) : s'.Threaded := by
  cases h with
  | bus hmove henter hresume hopen =>
      refine hs.move hmove (fun t hact => (henter t hact).1) hopen
        (fun f hf hact => (henter f.thread hact).2 f hf rfl) fun f hf hact => ?_
      exact hs.above_of_not_inEntry hf (hresume f.thread hact)
  | looped hstack hloops hentry => exact hs.loops hstack hloops hentry
  | abandoned hk hmove =>
      exact hs.abandon.move hmove (fun _ hact => nomatch hact)
        (fun _ => move_opens_nothing hmove fun _ hact => nomatch hact)
        (fun _ _ hact => nomatch hact) fun _ _ hact => nomatch hact

omit [DecidableEq Tid] [DecidableEq K] in
/-- When its call of the bus is over, the thread is back where it was. -/
theorem Framework.Threaded.back {k : K} {call : Call} {ret : SysErr} {out : Option Nat}
    (hs : s.Threaded) (hf : s.frame = some f)
    (hpoint : f.point = .inBusStart k ∨ f.point = .inBusStop k)
    (hk : s.bus.calls k = .returned call ret out) :
    (s.bus.stack f.thread).length = f.depth ∧
      ∀ k', ¬ Starting (s.bus.calls k') ∧ ¬ Stopping (s.bus.calls k') := by
  constructor
  · rcases (hs.frame f hf).call k hpoint with ⟨⟨-, hst⟩ | ⟨-, hst⟩, -⟩ | ⟨-, hlen⟩
    · rw [hk] at hst
      rcases hst with hst | hst <;> cases hst
    · rw [hk] at hst
      rcases hst with hst | hst <;> cases hst
    · exact hlen
  · refine hs.no_call hf fun k' hpoint' => ?_
    have hkk : k' = k := by
      rcases hpoint with hp | hp <;> rw [hp] at hpoint' <;>
        rcases hpoint' with hp' | hp' <;> cases hp' <;> rfl
    rw [hkk, hk]
    rfl

/-- Every step keeps the threads in order. -/
theorem next_threaded {a : CoreAction Tid K} (hs : s.Threaded) (h : next s a = some s') :
    s'.Threaded := by
  cases next_cases h with
  | bus hstep => exact (busStep_move hstep).threaded hs
  | init hcode =>
      unfold sysCoreInit
      split
      · exact hs.refused
      · rename_i hcore
        exact hs.opened (outside_of_inUserCode hcode).1 (Or.inl (not_not.mp hcore)) (by simp)
          (Or.inl rfl)
  | shutdown hcode =>
      unfold sysCoreShutdown
      split
      · exact hs.refused
      · rename_i hcore
        exact hs.opened (outside_of_inUserCode hcode).1 (Or.inr (not_not.mp hcore)) (by simp)
          (Or.inr rfl)
  | startCalled hf hpoint hk hb => exact hs.calls hf (Or.inl hpoint) (Or.inl ⟨rfl, rfl⟩) hk hb
  | stopCalled hf hpoint hk hb => exact hs.calls hf (Or.inr hpoint) (Or.inr ⟨rfl, rfl⟩) hk hb
  | startReturned hf hpoint hk =>
      obtain ⟨hlen, hno⟩ := hs.back hf (Or.inl hpoint) hk
      refine hs.goesOn hf hlen hno ?_
      split
      · exact Or.inl rfl
      · exact Or.inr (Or.inl rfl)
  | stopReturned hf hpoint hk =>
      obtain ⟨hlen, hno⟩ := hs.back hf (Or.inr hpoint) hk
      exact hs.goesOn hf hlen hno (Or.inr (Or.inr rfl))
  | passReturned hf hpoint hlen =>
      have hno := hs.no_call hf fun k' hp => by
        rw [hpoint] at hp
        rcases hp with hp | hp <;> cases hp
      refine hs.goesOn hf hlen hno ?_
      split
      · exact Or.inr (Or.inr rfl)
      · exact Or.inr (Or.inl rfl)
  | finished hf hpoint =>
      have hno := hs.no_call hf fun k' hp => by
        rw [hpoint] at hp
        rcases hp with hp | hp <;> cases hp
      exact ⟨hs.nested, (fun f' hf' => nomatch hf'), fun _ => rfl,
        fun k hk => absurd hk (hno k).1, fun k hk => absurd hk (hno k).2, hs.vacant⟩

omit [DecidableEq Tid] [DecidableEq K] in
theorem zero_threaded : (Framework.zero Tid K).Threaded := by
  have hno : ∀ k, ¬ Starting ((Framework.zero Tid K).bus.calls k) ∧
      ¬ Stopping ((Framework.zero Tid K).bus.calls k) := by
    intro k
    show ¬ Starting .notStarted ∧ ¬ Stopping .notStarted
    simp [Starting, Stopping]
  have hbase : ∀ t, (Framework.zero Tid K).base t = false := by
    intro t
    match t with
    | .worker => rfl
    | .caller (.inl _) => rfl
    | .caller (.inr _) => rfl
  refine ⟨⟨fun t => List.nodup_nil, fun t t' k hk => (List.not_mem_nil hk).elim,
    fun t k hk => (List.not_mem_nil hk).elim, fun t k rest hstack => (by cases hstack),
    fun t => ?_, fun t _ hne => absurd rfl hne⟩, (fun f hf => nomatch hf), fun _ => rfl,
    fun k hk => absurd hk (hno k).1, fun k hk => absurd hk (hno k).2, fun n _ => rfl⟩
  show 0 = 0 + ((Framework.zero Tid K).base t).toNat
  rw [hbase]
  rfl

/-- The changes of a step of the framework. -/
inductive CoreMove (s : Framework Tid K) (a : CoreAction Tid K) : Framework Tid K → Prop
  | bus {v} : BusMove s v → CoreMove s a v
  /-- An entry point has called the bus. -/
  | called {f k call v} : a = .busCall k → s.frame = some f →
      (f.point = .busStart ∧ call = .start ∨ f.point = .busStop ∧ call = .stop) →
      s.bus.calls k = .notStarted → s.stacks.Outside Outsider f.thread →
      Event.begin s.bus f.thread k call = some v.bus → v.abandoned = s.abandoned → CoreMove s a v
  /-- An entry point has moved outside the bus. -/
  | still {v} : v.bus = s.bus → v.abandoned = s.abandoned → CoreMove s a v

/-- Every step is one of the changes. -/
theorem next_move {a : CoreAction Tid K} (hs : s.Threaded) (h : next s a = some s') :
    CoreMove s a s' := by
  cases next_cases h with
  | bus hstep => exact CoreMove.bus (busStep_move hstep)
  | init _ =>
      unfold sysCoreInit
      split <;> exact CoreMove.still rfl rfl
  | shutdown _ =>
      unfold sysCoreShutdown
      split <;> exact CoreMove.still rfl rfl
  | startCalled hf hpoint hk hb =>
      have hout := (hs.frame _ hf).outside (Or.inl hpoint)
      exact CoreMove.called rfl hf (Or.inl ⟨hpoint, rfl⟩) hk hout hb rfl
  | stopCalled hf hpoint hk hb =>
      have hout := (hs.frame _ hf).outside (Or.inr hpoint)
      exact CoreMove.called rfl hf (Or.inr ⟨hpoint, rfl⟩) hk hout hb rfl
  | startReturned _ _ _ => exact CoreMove.still rfl rfl
  | stopReturned _ _ _ => exact CoreMove.still rfl rfl
  | passReturned _ _ _ => exact CoreMove.still rfl rfl
  | finished _ _ => exact CoreMove.still rfl rfl

end Steps

end Core
end AppCore
