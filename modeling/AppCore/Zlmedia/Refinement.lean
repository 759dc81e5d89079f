/-
  AppCore.Zlmedia.Refinement

  The module keeps the contract of the camera's consumers: every orderly run of it and the
  others is a run of the camera.  What it has of a stream is accounted for at every point of
  such a run.
-/

import AppCore.Zlmedia.Attachment

namespace AppCore
namespace Zlmedia

open Channel Camera

variable {T D : Type*} {P : Platform}

/-! ## The contract -/

section Contract

variable {s : Media T D} {k : Caller T}

/-- A module with no thread and no reference. -/
structure Media.Detached (s : Media T D) : Prop where
  free : s.camera.camera.stream.Free none
  threads : ∀ θ, s.threads θ = none

/-- When nobody owns anything, the module has nothing. -/
theorem Media.Attached.detached (h : s.Attached) (hempty : ∀ i, s.handle i = (none, false)) :
    s.Detached := by
  obtain ⟨hrefs, hthreads⟩ := Family.Holding.empty h.handed hempty
  have hnone : ∀ θ, s.threads θ = none := fun θ => not_not.mp (hthreads θ)
  refine ⟨⟨hrefs, fun b => ?_⟩, hnone⟩
  have hheld := h.buffered.held b
  rw [heldAt_of_lt b.isLt] at hheld
  rw [hheld]
  apply finsum_eq_zero_of_forall_eq_zero
  intro θ
  rw [hnone θ]
  rfl

/-- The callback of the stopping event returns when the module has nothing any more. -/
theorem Media.Attached.detached_of_done (h : s.Attached) (hown : s.camera.Owned P) {ret : SysErr}
    (hk : s.detaches (some k) = .done ret) (hdropping : (s.camera.calls k).dropping = some none)
    (hstop : (s.detaches none).handle = (none, false)) : s.Detached := by
  have hc := h.consistent
  have hbegun : s.detaches (some k) ≠ .idle := by
    rw [hk]
    exact fun heq => by cases heq
  obtain ⟨hcallback, hthread⟩ := hc.called k hbegun
  have hnone := hthread hdropping
  refine h.detached fun i => ?_
  cases i with
  | none =>
      show (s.globals.thread, s.globals.channel) = (none, false)
      rw [hc.paired, hnone]
      rfl
  | some j =>
      cases j with
      | none => exact hstop
      | some k' =>
          show (s.detaches (some k')).handle = (none, false)
          by_cases hne : k' = k
          · rw [hne, hk]
            rfl
          · by_cases hbegun' : s.detaches (some k') = .idle
            · rw [hbegun']
              rfl
            · have hactive := active_of_callback (hc.called k' hbegun').1
              exact absurd (call_unique hown hactive (active_of_callback hcallback)) hne

/-- So it keeps the contract exactly when `zlmedia_stop` has nothing of the stream then. -/
theorem Media.Attached.contract_iff (h : s.Attached) (hown : s.camera.Owned P) {ret : SysErr}
    (hk : s.detaches (some k) = .done ret) (hdropping : (s.camera.calls k).dropping = some none) :
    Contract s.camera (.callbackReturned k ret) ↔ (s.detaches none).handle = (none, false) := by
  constructor
  · intro hcontract
    have hempty : s.camera.camera.stream.refs none = 0 := (hcontract none hdropping).1
    have hhanded := h.handed
    rw [Media.Handed, hempty] at hhanded
    exact hhanded.eq_of_count (some none)
  · intro hstop c hc
    obtain rfl := Option.some.inj (hdropping.symm.trans hc)
    exact (h.detached_of_done hown hk hdropping hstop).free

end Contract

section Run

variable [DecidableEq T] [DecidableEq D] {s s' : Media T D} {e : MediaEvent T D}

/-- The camera's steps in a step of the module and everybody else. -/
def Projects (P : Platform) (s s' : Media T D) : Prop :=
  ∃ es, (cameraMachine T (Option D) P).Run s.camera es s'.camera

theorem Projects.same (h : s'.camera = s.camera) : Projects P s s' :=
  ⟨[], by rw [h]; exact Machine.Run.nil⟩

theorem Projects.single {e : Camera.Event T (Option D)}
    (h : (cameraMachine T (Option D) P).step s.camera e s'.camera) : Projects P s s' :=
  ⟨[e], Machine.Run.single h⟩

/-- A step in which the module does one thing with the stream. -/
theorem Projects.act {s₁ : Media T D} {action : ConsumerAction} (h : s.act P action = some s₁)
    (hcontract : Camera.Contract s.camera (.consumer none action))
    (hcamera : s'.camera = s₁.camera) : Projects P s s' := by
  refine ⟨[.consumer none action], ?_⟩
  rw [hcamera]
  exact Machine.Run.single (act_step h hcontract)

/-- Every step consists of steps of the camera that keep the contract. -/
theorem MediaStep.projects (h : s.Attached) (hown : s.camera.Owned P) (ho : Orderly s e)
    (hstep : MediaStep P s e s') : Projects P s s' := by
  have hborrows : ∀ {k event}, s.Asked k event →
      Contract s.camera (.consumer none .retain) := by
    intro k event hk
    obtain ⟨rest, firstError, hcall⟩ := hk.calls
    refine Or.inl ⟨k, ?_⟩
    rw [hcall]
    rfl
  cases hstep with
  | camera houtside hnext => exact Projects.single ⟨hnext, ho⟩
  | @failed k event thread memory create ret ch s₁ s₂ hk hnone hch hloop hact hrelease =>
      have hfirst := act_step hact (hborrows hk)
      have hsecond := act_step hrelease (by
        obtain ⟨stream, hs, rfl⟩ := act_cases hact
        show 0 < stream.refs none
        rw [(consume_retain hch hloop hs).1]
        exact Nat.succ_pos _)
      exact ⟨[] ++ [_] ++ [_], (Machine.Run.nil.snoc hfirst).snoc hsecond⟩
  | attached hk hnone hfree hch hloop hact => exact Projects.act hact (hborrows hk) rfl
  | @callbackReturned k ret camera hj hnext =>
      refine Projects.single ⟨hnext, fun c hdropping => ?_⟩
      have hbegun : s.detaches (some k) ≠ .idle := by
        rw [hj]
        exact fun heq => by cases heq
      obtain ⟨hcallback, -⟩ := h.consistent.called k hbegun
      have hsame : (s.camera.calls k).callback = some c := by
        generalize s.camera.calls k = st at hdropping
        cases st with
        | teardown t event stage =>
            cases stage with
            | notify pending firstError => exact hdropping
            | _ => cases hdropping
        | _ => cases hdropping
      obtain rfl : none = c := Option.some.inj (hcallback.symm.trans hsame)
      exact (h.detached_of_done hown hj hdropping (ho hdropping)).free
  | @released j ret s₁ hj hact =>
      refine Projects.act hact ?_ rfl
      apply Family.Holding.pos h.handed (i := some j)
      show (s.detaches j).handle.2 = true
      rw [hj]
      rfl
  | received ht hloop hch hact =>
      exact Projects.act hact (Or.inr (h.refs_pos ht)) rfl
  | gaveBack ht hloop hact =>
      exact Projects.act hact (holdsBuffer_of_pos (h.heldAt_pos ht (Or.inr hloop))) rfl
  | _ => exact Projects.same rfl

/-- The module, the camera and the run of the camera so far. -/
theorem run_attached (hP : 0 < P.uintMax) {es : List (MediaEvent T D)} (hfresh : s.Fresh)
    (hrun : (mediaMachine T D P).Run s es s') : s'.Attached ∧ Projects P s s' := by
  refine hrun.invariant (I := fun t => t.Attached ∧ Projects P s t) (fun u e v hu hstep => ?_)
    ⟨hfresh.attached, Projects.same rfl⟩
  obtain ⟨hattached, es', hes'⟩ := hu
  obtain ⟨hnext, ho⟩ := hstep
  have hreach : (cameraMachine T (Option D) P).Reachable u.camera :=
    ⟨s.camera, es', hfresh.camera, hes'⟩
  have hown := owned_of_reachable hP hreach
  have hcases := next_cases hnext
  obtain ⟨es, hes⟩ := hcases.projects hattached hown ho
  exact ⟨hcases.attached_of hattached hP hown (announced_of_reachable hP hreach) ho,
    es' ++ es, hes'.append hes⟩

theorem attached_of_reachable (hP : 0 < P.uintMax) (h : (mediaMachine T D P).Reachable s) :
    s.Attached ∧ (cameraMachine T (Option D) P).Reachable s.camera := by
  obtain ⟨s₀, es, hfresh, hrun⟩ := h
  obtain ⟨hattached, es', hes'⟩ := run_attached hP hfresh hrun
  exact ⟨hattached, s₀.camera, es', hfresh.camera, hes'⟩

/-! ## Runs of the module -/

/-- The module keeps the contract of the camera's consumers, whatever the others do: in every
    orderly run, what happens to the camera is a run of the camera.  The one thing that is asked
    of `zlmedia_stop` there is necessary: if it still has something of the stream when the
    callback of the stopping event returns, the module breaks the contract. -/
theorem media_refines_camera (hP : 0 < P.uintMax) {es : List (MediaEvent T D)} (hfresh : s.Fresh)
    (hrun : (mediaMachine T D P).Run s es s') :
    (∃ es', (cameraMachine T (Option D) P).Run s.camera es' s'.camera) ∧
      ∀ k ret, s'.detaches (some k) = .done ret → (s'.camera.calls k).dropping = some none →
        (Contract s'.camera (.callbackReturned k ret) ↔
          (s'.detaches none).handle = (none, false)) := by
  obtain ⟨hattached, es', hes'⟩ := run_attached hP hfresh hrun
  have hown := owned_of_reachable hP ⟨s.camera, es', hfresh.camera, hes'⟩
  exact ⟨⟨es', hes'⟩, fun k ret hk hdropping => hattached.contract_iff hown hk hdropping⟩

end Run

instance (s : Media T D) [Fintype T] [Fintype D] [DecidableEq D] : ∀ e, Decidable (Orderly s e)
  | .camera e => inferInstanceAs (Decidable (Camera.Contract s.camera e))
  | .callbackReturned k => inferInstanceAs (Decidable ((s.camera.calls k).dropping = some none →
      (s.detaches none).handle = (none, false)))
  | .detach _ ret => inferInstanceAs (Decidable (ret = 0))
  | .started _ _ _ _ => isTrue trivial
  | .stopping _ => isTrue trivial
  | .stop => isTrue trivial
  | .stopReturned => isTrue trivial
  | .consumer _ _ => isTrue trivial
  | .setPort _ => isTrue trivial

/-- The state after the first `camera_init` and the first `zlmedia_init` of the program. -/
def Media.initial (T D : Type*) : Media T D where
  camera := System.initial T (Option D)
  globals := {}
  threads := fun _ => none
  detaches := fun _ => .idle

theorem Media.initial_fresh : (Media.initial T D).Fresh :=
  ⟨System.initial_fresh, rfl, rfl, rfl, rfl, rfl⟩

/-- A stream of which the module receives a frame, until its thread has the frame. -/
def oneFrame : List (MediaEvent Unit Empty) :=
  [.camera (.acquire () (.start (some { fps := 30, width := 5, height := 5, bufferCount := 2 }))),
    .camera (.start (.thread ()) {}), .camera (.publish (.thread ()) (some [none])),
    .started (.thread ()) 7 true 0, .callbackReturned (.thread ()), .camera (.proceed (.thread ())),
    .camera (.release ()),
    .camera (.producer 7), .camera (.producer 7), .camera (.producer 7), .camera (.producer 7),
    .camera (.producer 7), .camera (.producer 7),
    .consumer 7 0, .consumer 7 0]

/-- The stream is stopped while the thread still has the frame. -/
def stoppedThen : List (MediaEvent Unit Empty) :=
  [.consumer 7 0, .camera (.acquire () .stop), .camera (.stop (.thread ())),
    .camera (.proceed (.thread ())), .camera (.proceed (.thread ())),
    .camera (.proceed (.thread ())), .camera (.producer 8), .camera (.proceed (.thread ())),
    .camera (.publish (.thread ()) (some [none])), .stopping (.thread ()),
    .detach (some (.thread ())) 0, .consumer 7 0, .consumer 7 0, .detach (some (.thread ())) 0,
    .detach (some (.thread ())) 0, .callbackReturned (.thread ()),
    .camera (.proceed (.thread ())), .camera (.proceed (.thread ())),
    .camera (.proceed (.thread ())), .camera (.proceed (.thread ())),
    .camera (.proceed (.thread ()))]

/-- `zlmedia_stop` begins first, so that the callback of the stopping event finds nothing to
    detach, and is about to return. -/
def overlapping : List (MediaEvent Unit Empty) :=
  [.stop, .camera (.acquire () .stop), .camera (.stop (.thread ())),
    .camera (.proceed (.thread ())), .camera (.proceed (.thread ())),
    .camera (.proceed (.thread ())), .camera (.producer 8), .camera (.proceed (.thread ())),
    .camera (.publish (.thread ()) (some [none])), .stopping (.thread ()),
    .detach (some (.thread ())) 0, .detach (some (.thread ())) 0]

/-- A stream from its start to its stop, and one whose stop runs beside `zlmedia_stop`. -/
theorem media_refines_camera_stopped :
    (∃ (s : Media Unit Empty) (es : List (Camera.Event Unit (Option Empty))),
      s.camera.camera.state = .stopped ∧ s.globals.consumedFrames = 1 ∧
      (cameraMachine Unit (Option Empty) .lp64).Run (System.initial Unit (Option Empty)) es
        s.camera) ∧
      ∃ s : Media Unit Empty, s.detaches (some (.thread ())) = .done .ok ∧
        s.detaches none = .taken (some 7) true ∧
        ¬ Contract s.camera (.callbackReturned (.thread ()) .ok) := by
  constructor
  · obtain ⟨s, hexec, hcounts⟩ := Option.map_eq_some_iff.mp (show
      (Machine.execIf (next .lp64) Orderly (Media.initial Unit Empty)
        (oneFrame ++ stoppedThen)).map
          (fun s => (s.camera.camera.state, s.globals.consumedFrames)) = some (.stopped, 1) by
        decide)
    obtain ⟨hstate, hconsumed⟩ := Prod.mk.inj hcounts
    have hrun : (mediaMachine Unit Empty .lp64).Run (Media.initial Unit Empty)
        (oneFrame ++ stoppedThen) s := Machine.Run.of_execIf hexec
    obtain ⟨⟨es, hes⟩, -⟩ := media_refines_camera (by decide) Media.initial_fresh hrun
    exact ⟨s, es, hstate, hconsumed, hes⟩
  · obtain ⟨s, hexec, hcalls⟩ := Option.map_eq_some_iff.mp (show
      (Machine.execIf (next .lp64) Orderly (Media.initial Unit Empty)
        (oneFrame ++ overlapping)).map
          (fun s => (s.detaches (some (.thread ())), s.detaches none,
            (s.camera.calls (.thread ())).dropping)) =
        some (.done .ok, .taken (some 7) true, some none) by
        decide)
    simp only [Prod.mk.injEq] at hcalls
    obtain ⟨hdone, htaken, hdropping⟩ := hcalls
    have hrun : (mediaMachine Unit Empty .lp64).Run (Media.initial Unit Empty)
        (oneFrame ++ overlapping) s := Machine.Run.of_execIf hexec
    obtain ⟨-, hiff⟩ := media_refines_camera (by decide) Media.initial_fresh hrun
    refine ⟨s, hdone, htaken, fun hcontract => ?_⟩
    have hnothing := (hiff _ _ hdone hdropping).mp hcontract
    rw [htaken] at hnothing
    cases hnothing

/-! ## The account -/

section Account

variable [DecidableEq T] [DecidableEq D] {s : Media T D}

/-- What the module has of a stream, and who answers for it. -/
structure Media.Accounted (s : Media T D) : Prop where
  channel : s.camera.camera.stream.refs none = {i | (s.handle i).2 = true}.ncard
  buffers : ∀ b, heldAt s.camera.camera.stream none b = {θ | 0 < holds b (s.threads θ)}.ncard
  /-- A thread is in the static variables or in one call of `detach_stream`. -/
  owned : ∀ θ, s.threads θ ≠ none → ∃! i, (s.handle i).1 = some θ
  backed : ∀ i θ, (s.handle i).1 = some θ → s.threads θ ≠ none ∧ (s.handle i).2 = true
  streaming : s.globals.running = s.globals.thread.isSome
  detached : (∀ i, s.handle i = (none, false)) → s.Detached

theorem ConsumerLoop.holds_le (b : Nat) (loop : ConsumerLoop) : loop.holds b ≤ 1 := by
  cases loop with
  | check buffer =>
      simp only [ConsumerLoop.holds]
      split <;> omega
  | release buffer =>
      simp only [ConsumerLoop.holds]
      split <;> omega
  | _ => exact Nat.zero_le 1

theorem holds_le (b : Nat) (t : Option ConsumerThread) : holds b t ≤ 1 := by
  cases t with
  | none => exact Nat.zero_le 1
  | some t => exact t.loop.holds_le b

/-- In every orderly run each reference of the channel and of a buffer belongs to somebody who
    will give it up, and every consumer thread to somebody who will join it. -/
theorem attachment_accounted (hP : 0 < P.uintMax) (h : (mediaMachine T D P).Reachable s) :
    s.Accounted := by
  obtain ⟨hattached, -⟩ := attached_of_reachable hP h
  have hh := hattached.handed
  refine ⟨?_, fun b => ?_, fun θ hθ => ?_, fun i θ hi => ?_, hattached.consistent.streaming,
    hattached.detached⟩
  · rw [hh.count_eq, Family.finsum_eq_ncard fun i => Bool.toNat_le _]
    congr 1
    ext i
    show 0 < (s.handle i).2.toNat ↔ (s.handle i).2 = true
    cases (s.handle i).2 <;> simp
  · rw [hattached.buffered.held b, Family.finsum_eq_ncard fun θ => holds_le b _]
  · obtain ⟨i, hi⟩ := hh.held_of_alive θ hθ
    exact ⟨i, hi, fun j hj => hh.unique j i θ hj hi⟩
  · exact ⟨hh.alive_of_held i θ hi, hh.backed i θ hi⟩

end Account

/-- The account while a thread has a frame: one owner, one reference of each. -/
theorem attachment_accounted_frame :
    ∃ s : Media Unit Empty, s.camera.camera.stream.refs none = 1 ∧
      heldAt s.camera.camera.stream none 0 = 1 ∧ s.Accounted := by
  obtain ⟨s, hexec, hcounts⟩ := Option.map_eq_some_iff.mp (show
    (Machine.execIf (next .lp64) Orderly (Media.initial Unit Empty) oneFrame).map
      (fun s => (s.camera.camera.stream.refs none, heldAt s.camera.camera.stream none 0)) =
        some (1, 1) by decide)
  obtain ⟨hrefs, hheld⟩ := Prod.mk.inj hcounts
  have hreach : (mediaMachine Unit Empty .lp64).Reachable s :=
    ⟨_, _, Media.initial_fresh, Machine.Run.of_execIf hexec⟩
  exact ⟨s, hrefs, hheld, attachment_accounted (by decide) hreach⟩

end Zlmedia
end AppCore
