/-
  AppCore.Zlmedia.Attachment

  What the module has of a stream: its consumer threads, each with one owner, a reference of
  the channel wherever the thread and the channel are kept, and a reference of a buffer for
  every thread that has received one.
-/

import AppCore.Zlmedia.Model
import AppCore.Camera.Bystander
import AppCore.Lib.Holding

namespace AppCore
namespace Zlmedia

open Channel Camera

variable {T D : Type*} {P : Platform}

/-! ## The owners of the threads -/

/-- The thread and the reference of the channel in the local variables of `detach_stream`. -/
def DetachState.handle : DetachState → Option Nat × Bool
  | .taken thread channel => (thread, channel)
  | .join thread channel => (some thread, channel)
  | .joinFailed thread channel _ => (some thread, channel)
  | .release channel => (none, channel)
  | _ => (none, false)

/-- The static variables (`none`) and every call that detaches the module may own a thread. -/
def Media.handle (s : Media T D) : Option (Option (Caller T)) → Option Nat × Bool
  | none => (s.globals.thread, s.globals.channel)
  | some j => (s.detaches j).handle

/-- The references of the channel are those of the owners of the threads. -/
def Media.Handed (s : Media T D) : Prop :=
  Family.Holding s.handle (fun θ => s.threads θ ≠ none) (s.camera.camera.stream.refs none)

/-- The references of a buffer that a thread has at a point of its loop. -/
def ConsumerLoop.holds (buffer : Nat) : ConsumerLoop → Nat
  | .check b => if b = buffer then 1 else 0
  | .release b => if b = buffer then 1 else 0
  | _ => 0

/-- The references of a buffer that a thread has, if there is one. -/
def holds (buffer : Nat) (t : Option ConsumerThread) : Nat :=
  match t with
  | some t => t.loop.holds buffer
  | none => 0

/-- The references of the buffers are those of the threads. -/
structure Media.Buffered (s : Media T D) : Prop where
  finite : ∀ b, (Function.support fun θ => holds b (s.threads θ)).Finite
  held : ∀ b, heldAt s.camera.camera.stream none b = ∑ᶠ θ, holds b (s.threads θ)

/-- The static variables agree with each other, with the calls and with the camera. -/
structure Media.Consistent (s : Media T D) : Prop where
  paired : s.globals.channel = s.globals.thread.isSome
  streaming : s.globals.running = s.globals.thread.isSome
  /-- No join has failed. -/
  joins : ∀ j thread channel ret, s.detaches j ≠ .joinFailed thread channel ret
  called : ∀ k, s.detaches (some k) ≠ .idle → (s.camera.calls k).callback = some none ∧
    ((s.camera.calls k).dropping = some none → s.globals.thread = none)
  generation : ∀ i, (s.handle i).2 = true →
    s.globals.streamGeneration = s.camera.camera.frames.generation

/-- What holds of the module in every run. -/
structure Media.Attached (s : Media T D) : Prop where
  handed : s.Handed
  buffered : s.Buffered
  consistent : s.Consistent

section Updates

variable {s : Media T D} {j : Option (Caller T)} {st : DetachState}

/-- One thread has changed, and the references of the buffers with it. -/
theorem Media.Buffered.update (h : s.Buffered) {s' : Media T D} {θ : Nat}
    {t' : Option ConsumerThread} (hthreads : s'.threads = Function.update s.threads θ t')
    (hheld : ∀ b, heldAt s'.camera.camera.stream none b + holds b (s.threads θ) =
      heldAt s.camera.camera.stream none b + holds b t') : s'.Buffered := by
  have hfinite : ∀ b, (Function.support fun i => holds b (s'.threads i)).Finite := by
    intro b
    rw [hthreads]
    exact Family.support_update_finite (f := fun _ t => holds b t) (h.finite b) θ t'
  refine ⟨hfinite, fun b => ?_⟩
  have hsum := Family.finsum_update_add (f := fun _ t => holds b t) (h.finite b) θ t'
  have hb := hheld b
  rw [h.held b] at hb
  rw [hthreads]
  omega

/-- Nothing about the threads and the buffers has changed. -/
theorem Media.Buffered.same (h : s.Buffered) {s' : Media T D} (hthreads : s'.threads = s.threads)
    (hheld : ∀ b, heldAt s'.camera.camera.stream none b = heldAt s.camera.camera.stream none b) :
    s'.Buffered := by
  refine ⟨fun b => ?_, fun b => ?_⟩
  · rw [hthreads]
    exact h.finite b
  · rw [hthreads, hheld b]
    exact h.held b

theorem Media.Handed.same (h : s.Handed) {s' : Media T D} (hhandle : s'.handle = s.handle)
    (hthreads : ∀ θ, s'.threads θ ≠ none ↔ s.threads θ ≠ none)
    (hrefs : s'.camera.camera.stream.refs none = s.camera.camera.stream.refs none) :
    s'.Handed := by
  unfold Media.Handed
  rw [hhandle, hrefs]
  exact Family.Holding.congr h hthreads

variable [DecidableEq T]

theorem handle_setDetach (s : Media T D) (j : Option (Caller T)) (st : DetachState) :
    (s.setDetach j st).handle = Function.update s.handle (some j) st.handle := by
  funext i
  cases i with
  | none => exact (Function.update_of_ne (fun h => by cases h) ..).symm
  | some j' =>
      by_cases hj : j' = j
      · subst hj
        simp [Media.handle, Media.setDetach]
      · have hne : some j' ≠ some j := fun h => hj (Option.some.inj h)
        simp [Media.handle, Media.setDetach, Function.update_of_ne hj, Function.update_of_ne hne]

/-- A call that goes on with the same thread and the same reference. -/
theorem handle_setDetach_same (h : st.handle = (s.detaches j).handle) :
    (s.setDetach j st).handle = s.handle := by
  rw [handle_setDetach, h]
  exact Function.update_eq_self (some j) s.handle

/-- A call that has nothing returns. -/
theorem handle_setDetach_done (s : Media T D) (j : Option (Caller T)) (ret : SysErr)
    (h : s.detaches j = .idle) : (s.setDetach j (.done ret)).handle = s.handle := by
  apply handle_setDetach_same
  rw [h]
  rfl

theorem handle_globals (s : Media T D) (g : Globals) :
    Media.handle { s with globals := g } =
      Function.update s.handle none (g.thread, g.channel) := by
  funext i
  cases i with
  | none => simp [Media.handle]
  | some j => simp [Media.handle]

theorem handle_detachStream (s : Media T D) (j : Option (Caller T)) :
    (detachStream s j).handle =
      Function.update (Function.update s.handle (some j) (s.handle none)) none (none, false) := by
  unfold detachStream
  rw [handle_globals, handle_setDetach]
  rfl

theorem Media.Handed.done (h : s.Handed) {ret : SysErr} (hidle : s.detaches j = .idle) :
    (s.setDetach j (.done ret)).Handed :=
  h.same (handle_setDetach_done s j ret hidle) (fun _ => Iff.rfl) rfl

end Updates

/-! ## The module and everybody else -/

/-- What the others owe.  The other consumers keep their contract, and the bus calls the module
    when a stream is stopping that it has references of.  A join of a thread that exists does
    not fail, and `zlmedia_stop` is not in the middle of `detach_stream` when the callback of
    the stopping event returns. -/
def Orderly (s : Media T D) : MediaEvent T D → Prop
  | .camera e => Contract s.camera e
  | .callbackReturned k => (s.camera.calls k).dropping = some none →
      (s.detaches none).handle = (none, false)
  | .detach _ ret => ret = 0
  | _ => True

/-- The state after `zlmedia_init`. -/
structure Media.Fresh (s : Media T D) : Prop where
  camera : s.camera.Fresh
  running : s.globals.running = false
  thread : s.globals.thread = none
  channel : s.globals.channel = false
  threads : s.threads = fun _ => none
  detaches : s.detaches = fun _ => .idle

/-- The module under the interleavings with the camera and its other users that are orderly.  The
    runs are left out in which `zlmedia_stop` still has a thread or a reference in
    `detach_stream` when the callback of the stopping event returns. -/
def mediaMachine (T D : Type*) [DecidableEq T] [DecidableEq D] (P : Platform) :
    Machine (Media T D) (MediaEvent T D) :=
  (Machine.ofNext Media.Fresh (next P)).restrict fun s e _ => Orderly s e

theorem Media.Fresh.attached {s : Media T D} (h : s.Fresh) : s.Attached := by
  have hhandle : ∀ i, s.handle i = (none, false) := by
    intro i
    cases i with
    | none => simp [Media.handle, h.thread, h.channel]
    | some j => simp [Media.handle, h.detaches, DetachState.handle]
  have hrefs : s.camera.camera.stream.refs none = 0 := congrFun h.camera.gone.refs none
  refine ⟨?_, ⟨fun b => ?_, fun b => ?_⟩, ?_, ?_, fun j thread channel ret => ?_, fun k hk => ?_,
    fun i hi => ?_⟩
  · unfold Media.Handed
    rw [hrefs]
    refine Family.Holding.nobody hhandle fun θ hθ => hθ ?_
    rw [h.threads]
  · rw [h.threads]
    exact Set.finite_empty.subset fun θ hθ => hθ rfl
  · rw [h.threads, heldAt_free (h.camera.gone.free none)]
    exact finsum_zero.symm
  · rw [h.channel, h.thread]
    rfl
  · rw [h.running, h.thread]
    rfl
  · rw [h.detaches]
    exact fun heq => by cases heq
  · rw [h.detaches] at hk
    exact absurd rfl hk
  · rw [hhandle] at hi
    cases hi

/-! ## What the module does with the stream -/

/-- The stream has changed, and nothing else. -/
def Media.withStream (s : Media T D) (stream : Stream (Option D) s.camera.camera.blocks) :
    Media T D :=
  { s with camera := { s.camera with camera := { s.camera.camera with stream := stream } } }

section Actions

variable {s s₁ : Media T D} {action : ConsumerAction}

/-- A thread that exists has an owner with a reference of the channel. -/
theorem Media.Attached.refs_pos (h : s.Attached) {θ : Nat} {t : ConsumerThread}
    (ht : s.threads θ = some t) : 0 < s.camera.camera.stream.refs none := by
  have halive : s.threads θ ≠ none := by
    rw [ht]
    exact fun heq => by cases heq
  obtain ⟨i, hi⟩ := h.handed.held_of_alive θ halive
  exact h.handed.pos (h.handed.backed i θ hi)

/-- A thread that has a buffer has a reference of it. -/
theorem Media.Attached.heldAt_pos (h : s.Attached) {θ buffer : Nat} {t : ConsumerThread}
    (ht : s.threads θ = some t) (hloop : t.loop = .check buffer ∨ t.loop = .release buffer) :
    0 < heldAt s.camera.camera.stream none buffer := by
  have hone : holds buffer (s.threads θ) = 1 := by
    rw [ht]
    show t.loop.holds buffer = 1
    rcases hloop with hloop | hloop
    · rw [hloop]
      exact if_pos rfl
    · rw [hloop]
      exact if_pos rfl
  have hle := single_le_finsum θ (h.buffered.finite buffer) fun _ => Nat.zero_le _
  rw [← h.buffered.held buffer, hone] at hle
  exact hle

theorem holdsBuffer_of_pos {c : Option D} {buffer : Nat} {x : Camera.System T (Option D)}
    (h : 0 < heldAt x.camera.stream c buffer) : x.HoldsBuffer c buffer := by
  unfold heldAt at h
  split at h
  · rename_i hb
    exact ⟨hb, h⟩
  · exact absurd h (Nat.lt_irrefl 0)

variable [DecidableEq T] [DecidableEq D]

/-- An action of the module changes nothing but the stream. -/
theorem act_cases (h : s.act P action = some s₁) :
    ∃ stream, consume P none s.camera.camera.stream action = some stream ∧
      s₁ = s.withStream stream := by
  obtain ⟨camera, hnext, rfl⟩ := Option.map_eq_some_iff.mp h
  obtain ⟨stream, hs, rfl⟩ := Option.map_eq_some_iff.mp hnext
  exact ⟨stream, hs, rfl⟩

/-- An action is a step of the camera. -/
theorem act_step (h : s.act P action = some s₁)
    (hcontract : Contract s.camera (.consumer none action)) :
    (cameraMachine T (Option D) P).step s.camera (.consumer none action) s₁.camera := by
  obtain ⟨camera, hnext, rfl⟩ := Option.map_eq_some_iff.mp h
  exact ⟨hnext, hcontract⟩

/-- The step of the camera with which the module's callback ends. -/
theorem callbackReturned_eq {k : Caller T} {ret : SysErr} {camera : Camera.System T (Option D)}
    (h : Camera.next P s.camera (.callbackReturned k ret) = some camera) :
    camera.camera = s.camera.camera ∧ ∀ k', k' ≠ k → camera.calls k' = s.camera.calls k' := by
  obtain ⟨st, -, rfl⟩ := Option.map_eq_some_iff.mp h
  exact ⟨rfl, fun k' hk' => Function.update_of_ne hk' ..⟩

end Actions

/-! ## The references of the channel -/

section Handed

variable [DecidableEq T] [DecidableEq D] {s s' : Media T D} {e : MediaEvent T D}

theorem idle_handle {st : DetachState} (h : st = .idle) : st.handle = (none, false) := by
  rw [h]
  rfl

theorem update_ne_none {θ i : Nat} {t t' : ConsumerThread} {f : Nat → Option ConsumerThread}
    (ht : f θ = some t) : Function.update f θ (some t') i ≠ none ↔ f i ≠ none := by
  rw [Function.update_apply]
  split
  · rename_i heq
    rw [heq, ht]
    exact ⟨fun _ => fun h => (by cases h), fun _ => fun h => (by cases h)⟩
  · exact Iff.rfl

omit [DecidableEq T] [DecidableEq D] in
/-- A thread goes on. -/
theorem Media.Handed.goto (h : s.Handed) {θ : Nat} {t : ConsumerThread}
    (ht : s.threads θ = some t) (loop : ConsumerLoop) : (s.goto θ loop).Handed := by
  refine h.same rfl (fun i => ?_) rfl
  show Function.update s.threads θ _ i ≠ none ↔ _
  rw [ht]
  exact update_ne_none ht

/-- An action that keeps the references of the channel. -/
theorem Media.Handed.act {s₁ : Media T D} {action : ConsumerAction} (h : s.Handed)
    (hact : s.act P action = some s₁)
    (hrefs : ∀ stream, consume P none s.camera.camera.stream action = some stream →
      stream.refs = s.camera.camera.stream.refs) : s₁.Handed := by
  obtain ⟨stream, hs, rfl⟩ := act_cases hact
  exact h.same rfl (fun _ => Iff.rfl) (congrFun (hrefs stream hs) none)

theorem MediaStep.handed (h : s.Attached) (hP : 0 < P.uintMax) (hown : s.camera.Owned P)
    (ho : Orderly s e) (hstep : MediaStep P s e s') : s'.Handed := by
  have hdetached : ∀ {j}, s.detaches j = .idle → (detachStream s j).Handed := by
    intro j hidle
    unfold Media.Handed
    rw [handle_detachStream]
    exact h.handed.hand (fun heq => by cases heq) (idle_handle hidle)
  cases hstep with
  | @camera e camera houtside hnext =>
      have hother : ¬ TakesPart s.camera none e := by
        cases e with
        | consumer c action => exact houtside
        | callbackReturned k ret => exact houtside
        | _ => exact id
      have hby := step_bystander hP hown ⟨hnext, ho⟩ hother
      exact h.handed.same rfl (fun _ => Iff.rfl) hby.unmoved.refs
  | refused hk => exact Media.Handed.done h.handed hk.idle
  | @failed k event thread memory create ret ch s₁ s₂ hk hnone hch hloop hact hrelease =>
      obtain ⟨stream, hs, rfl⟩ := act_cases hact
      obtain ⟨stream', hs', rfl⟩ := act_cases hrelease
      have hretain := (consume_retain hch hloop hs).1
      have hback := (consume_release hs').1
      have hchannel : s.globals.channel = false := by
        rw [h.consistent.paired, hnone]
        rfl
      apply Media.Handed.done
      · refine h.handed.same ?_ (fun _ => Iff.rfl) ?_
        · funext i
          cases i with
          | none =>
              show (s.globals.thread, false) = (s.globals.thread, s.globals.channel)
              rw [hchannel]
          | some j => rfl
        · show stream'.refs none = _
          rw [hback]
          show stream.refs none - 1 = _
          rw [hretain]
          rfl
      · exact hk.idle
  | @attached k event thread memory create ch s₁ hk hnone hfree hch hloop hact =>
      obtain ⟨stream, hs, rfl⟩ := act_cases hact
      have hretain := (consume_retain hch hloop hs).1
      have hempty : s.handle none = (none, false) := by
        show (s.globals.thread, s.globals.channel) = (none, false)
        rw [h.consistent.paired, hnone]
        rfl
      have htaken := h.handed.take hempty (r := thread) fun halive => halive hfree
      apply Media.Handed.done
      · unfold Media.Handed
        have hhandle : Media.handle { s.withStream stream with
              globals := { s.globals.opened event with thread := some thread }
              threads := Function.update s.threads thread (some {}) } =
            Function.update s.handle none (some thread, true) := handle_globals s _
        show Family.Holding (Media.handle { s.withStream stream with
              globals := { s.globals.opened event with thread := some thread }
              threads := Function.update s.threads thread (some {}) }) _ (stream.refs none)
        rw [hhandle, hretain]
        refine htaken.congr fun θ => ?_
        show Function.update s.threads thread (some {}) θ ≠ none ↔ _
        rw [Function.update_apply]
        by_cases heq : θ = thread
        · rw [if_pos heq]
          exact ⟨fun _ => Or.inr heq, fun _ hx => by cases hx⟩
        · rw [if_neg heq]
          exact ⟨Or.inl, fun hx => hx.resolve_right heq⟩
      · exact hk.idle
  | stopping hk hidle => exact hdetached hidle
  | @callbackReturned k ret camera hj hnext =>
      obtain ⟨hcamera, -⟩ := callbackReturned_eq hnext
      refine h.handed.same ?_ (fun _ => Iff.rfl) ?_
      · apply handle_setDetach_same
        show _ = (s.detaches (some k)).handle
        rw [hj]
        rfl
      · show camera.camera.stream.refs none = _
        rw [hcamera]
  | stop hidle => exact hdetached hidle
  | stopReturned hj =>
      refine h.handed.same (handle_setDetach_same ?_) (fun _ => Iff.rfl) rfl
      rw [hj]
      rfl
  | @requested j ret thread channel hj =>
      refine h.handed.same ?_ (fun θ => ?_) rfl
      · apply handle_setDetach_same
        show _ = (s.detaches j).handle
        rw [hj]
        rfl
      · show Function.update s.threads thread _ θ ≠ none ↔ _
        cases ht : s.threads thread with
        | none =>
            rw [Option.map_none, ← ht, Function.update_eq_self]
        | some t => exact update_ne_none ht
  | threadless hj =>
      refine h.handed.same (handle_setDetach_same ?_) (fun _ => Iff.rfl) rfl
      rw [hj]
      rfl
  | joinFailed hj hret => exact absurd ho hret
  | @joined j thread channel t hj ht hexited =>
      have hhandle : s.handle (some j) = (some thread, channel) := by
        show (s.detaches j).handle = _
        rw [hj]
        rfl
      have hchannel : channel = true := by
        have hbacked := h.handed.backed (some j) thread (by rw [hhandle])
        rw [hhandle] at hbacked
        exact hbacked
      subst hchannel
      have hfinished := h.handed.finish hhandle
      unfold Media.Handed
      rw [handle_setDetach]
      refine hfinished.congr fun θ => ?_
      show Function.update s.threads thread none θ ≠ none ↔ _
      rw [Function.update_apply]
      by_cases heq : θ = thread
      · rw [if_pos heq]
        exact ⟨fun hx => absurd rfl hx, fun hx => absurd heq hx.2⟩
      · rw [if_neg heq]
        exact ⟨fun hx => ⟨hx, heq⟩, fun hx => hx.1⟩
  | restored hj => exact (h.consistent.joins _ _ _ _ hj).elim
  | @released j ret s₁ hj hact =>
      obtain ⟨stream, hs, rfl⟩ := act_cases hact
      have hhandle : s.handle (some j) = (none, true) := by
        show (s.detaches j).handle = _
        rw [hj]
        rfl
      have hdropped := h.handed.drop hhandle
      unfold Media.Handed
      rw [handle_setDetach]
      show Family.Holding _ _ (stream.refs none)
      rw [(consume_release hs).1]
      exact hdropped
  | unreferenced hj =>
      refine h.handed.same (handle_setDetach_same ?_) (fun _ => Iff.rfl) rfl
      rw [hj]
      rfl
  | looped ht hloop => exact Media.Handed.goto h.handed ht _
  | @received thread ret t ch waited s₁ ht hloop hch hact =>
      have hrefs := h.handed.act hact fun stream hs => (consume_receive hch hs).1
      obtain ⟨stream, hs, rfl⟩ := act_cases hact
      exact hrefs.goto ht _
  | @checked thread ret t buffer consumed ht hloop =>
      have hgoto := h.handed.goto ht (.release buffer)
      exact hgoto.same rfl (fun _ => Iff.rfl) rfl
  | @gaveBack thread ret t buffer s₁ ht hloop hact =>
      have hpos := h.heldAt_pos ht (Or.inr hloop)
      have hrefs := h.handed.act hact fun stream hs => (consume_bufferRelease hs hpos).1
      obtain ⟨stream, hs, rfl⟩ := act_cases hact
      exact hrefs.goto ht _
  | setPort =>
      refine h.handed.same ?_ (fun _ => Iff.rfl) rfl
      funext i
      cases i with
      | none =>
          unfold zlmediaRealSetPort Media.handle
          dsimp only
          split <;> rfl
      | some j => rfl

end Handed

/-! ## The references of the buffers -/

section Buffered

variable [DecidableEq T] [DecidableEq D] {s s' : Media T D} {e : MediaEvent T D}

omit [DecidableEq T] [DecidableEq D] in
/-- A thread goes on, and gains or loses the references that its new point says. -/
theorem Media.Buffered.goto (h : s.Buffered) {θ : Nat} {t : ConsumerThread}
    (ht : s.threads θ = some t) {loop : ConsumerLoop} {s₁ : Media T D}
    (hthreads : s₁.threads = s.threads)
    (hheld : ∀ b, heldAt s₁.camera.camera.stream none b + t.loop.holds b =
      heldAt s.camera.camera.stream none b + loop.holds b) : (s₁.goto θ loop).Buffered := by
  have hnew : (s₁.goto θ loop).threads =
      Function.update s.threads θ (some { t with loop := loop }) := by
    show Function.update s₁.threads θ _ = _
    rw [hthreads, ht]
    rfl
  refine h.update hnew fun b => ?_
  rw [ht]
  exact hheld b

/-- What a thread has after a section of `sys_channel_receive` is what it has been handed. -/
theorem afterReceive_holds {n : Nat} {ch : SysChannel n} (hvalid : ch.Valid P) (ret : Int)
    (b : Nat) :
    (afterReceive (receiveWake P 200 ret ch).2.1).holds b =
      if (receivedBuffer (receiveWake P 200 ret ch).2.1).map Fin.val = some b then 1 else 0 := by
  obtain ⟨-, hspec, -⟩ := receiveWake_spec hvalid 200 ret
  generalize receiveWake P 200 ret ch = r at hspec
  obtain ⟨left, outcome, obs⟩ := r
  dsimp only at hspec
  generalize left.fifo = q at hspec
  cases hspec with
  | waits => rfl
  | @failed r hok hclosed =>
      have hreturns : (afterReceive (.leave r none : ReceiveOutcome n)).holds b = 0 := by
        unfold afterReceive
        dsimp only
        split <;> rfl
      exact hreturns
  | closed => rfl
  | @popped x rest hitems =>
      show (if x.val = b then 1 else 0) = if some x.val = some b then 1 else 0
      by_cases heq : x.val = b
      · rw [if_pos heq, if_pos (congrArg some heq)]
      · rw [if_neg heq, if_neg fun h => heq (Option.some.inj h)]

theorem MediaStep.buffered (h : s.Attached) (hP : 0 < P.uintMax) (hown : s.camera.Owned P)
    (ho : Orderly s e) (hstep : MediaStep P s e s') : s'.Buffered := by
  cases hstep with
  | @camera e camera houtside hnext =>
      have hother : ¬ TakesPart s.camera none e := by
        cases e with
        | consumer c action => exact houtside
        | callbackReturned k ret => exact houtside
        | _ => exact id
      have hby := step_bystander hP hown ⟨hnext, ho⟩ hother
      exact h.buffered.same rfl hby.unmoved.held
  | @failed k event thread memory create ret ch s₁ s₂ hk hnone hch hloop hact hrelease =>
      obtain ⟨stream, hs, rfl⟩ := act_cases hact
      obtain ⟨stream', hs', rfl⟩ := act_cases hrelease
      refine h.buffered.same rfl fun b => ?_
      show heldAt stream' none b = _
      rw [heldAt_congr (congrFun (consume_release hs').2 none) b]
      show heldAt stream none b = _
      exact heldAt_congr (congrFun (consume_retain hch hloop hs).2 none) b
  | @attached k event thread memory create ch s₁ hk hnone hfree hch hloop hact =>
      obtain ⟨stream, hs, rfl⟩ := act_cases hact
      refine h.buffered.update (θ := thread) rfl fun b => ?_
      show heldAt stream none b + _ = _
      rw [heldAt_congr (congrFun (consume_retain hch hloop hs).2 none) b, hfree]
      rfl
  | @callbackReturned k ret camera hj hnext =>
      obtain ⟨hcamera, -⟩ := callbackReturned_eq hnext
      refine h.buffered.same rfl fun b => ?_
      show heldAt camera.camera.stream none b = _
      rw [hcamera]
  | @requested j ret thread channel hj =>
      cases ht : s.threads thread with
      | none =>
          refine h.buffered.same ?_ fun _ => rfl
          show Function.update s.threads thread _ = _
          rw [ht, Option.map_none, ← ht, Function.update_eq_self]
      | some t =>
          refine h.buffered.update (θ := thread) rfl fun b => ?_
          rw [ht]
          rfl
  | @joined j thread channel t hj ht hexited =>
      refine h.buffered.update (θ := thread) rfl fun b => ?_
      have hzero : holds b (s.threads thread) = 0 := by
        rw [ht]
        show t.loop.holds b = 0
        rw [hexited]
        rfl
      rw [hzero]
      rfl
  | @released j ret s₁ hj hact =>
      obtain ⟨stream, hs, rfl⟩ := act_cases hact
      refine h.buffered.same rfl fun b => ?_
      exact heldAt_congr (congrFun (consume_release hs).2 none) b
  | @looped thread ret t ht hloop =>
      refine h.buffered.goto ht rfl fun b => ?_
      rw [hloop]
      split <;> rfl
  | @received thread ret t ch waited s₁ ht hloop hch hact =>
      obtain ⟨stream, hs, rfl⟩ := act_cases hact
      refine h.buffered.goto ht rfl fun b => ?_
      have hzero : t.loop.holds b = 0 := by
        rcases hloop with ⟨hloop, -⟩ | ⟨hloop, -⟩
        · rw [hloop]
          rfl
        · rw [hloop]
          rfl
      have howned : (ConsumerAction.receive 200 waited).Owned s.camera.camera.stream none := trivial
      obtain ⟨pool, ch', hl⟩ := hown.live_of_consumer howned hs
      obtain rfl := Option.some.inj (hl.channel_eq.symm.trans hch)
      show heldAt stream none b + _ = _
      rw [hzero, afterReceive_holds hl.valid, (consume_receive hch hs).2 b]
      rfl
  | @checked thread ret t buffer consumed ht hloop =>
      refine (h.buffered.goto ht rfl fun b => ?_ : (s.goto thread (.release buffer)).Buffered).same
        rfl fun _ => rfl
      rw [hloop]
      rfl
  | @gaveBack thread ret t buffer s₁ ht hloop hact =>
      have hpos := h.heldAt_pos ht (Or.inr hloop)
      obtain ⟨stream, hs, rfl⟩ := act_cases hact
      refine h.buffered.goto ht rfl fun b => ?_
      rw [hloop]
      exact (consume_bufferRelease hs hpos).2 b
  | restored hj => exact (h.consistent.joins _ _ _ _ hj).elim
  | _ => exact h.buffered.same rfl fun _ => rfl

end Buffered

/-! ## The static variables -/

section Calls

variable {s s' : Media T D} {k : Caller T} {event : CameraStreamEvent}

/-- Two calls that are past the mutex are one call. -/
theorem call_unique (hown : s.camera.Owned P) {k k' : Caller T} (hk : (s.camera.calls k).Active)
    (hk' : (s.camera.calls k').Active) : k = k' := by
  by_contra hne
  exact (hown.active hk').2 k hne hk

theorem active_of_callback {st : CallState (Option D)} {c : Option D}
    (h : st.callback = some c) : st.Active := by
  by_contra hnot
  rw [CallState.inactive_callback hnot] at h
  cases h

/-- A step that changes no static variable the invariant speaks of. -/
theorem Media.Consistent.keep (h : s.Consistent)
    (hglobals : s'.globals = { s.globals with
      port := s'.globals.port, consumedFrames := s'.globals.consumedFrames })
    (hjoins : ∀ j thread channel ret, s'.detaches j ≠ .joinFailed thread channel ret)
    (hcalled : ∀ k, s'.detaches (some k) ≠ .idle →
      s.detaches (some k) ≠ .idle ∧ s'.camera.calls k = s.camera.calls k)
    (hhandle : ∀ i, (s'.handle i).2 = true → (s.handle i).2 = true ∧
      s'.camera.camera.frames.generation = s.camera.camera.frames.generation) :
    s'.Consistent := by
  refine ⟨?_, ?_, hjoins, fun k hk => ?_, fun i hi => ?_⟩
  · rw [hglobals]
    exact h.paired
  · rw [hglobals]
    exact h.streaming
  · obtain ⟨hold, hcall⟩ := hcalled k hk
    rw [hcall, hglobals]
    exact h.called k hold
  · obtain ⟨hold, hgeneration⟩ := hhandle i hi
    rw [hgeneration, hglobals]
    exact h.generation i hold

/-- While a call asks the module to attach itself, no callback of the module is running that
    has begun. -/
theorem Media.Asked.alone (hk : s.Asked k event) (h : s.Consistent) (hown : s.camera.Owned P) :
    ∀ k', s.detaches (some k') = .idle := by
  intro k'
  by_contra hbegun
  obtain ⟨rest, firstError, hcall⟩ := hk.calls
  have hactive : (s.camera.calls k).Active := by
    rw [hcall]
    trivial
  obtain rfl := call_unique hown (active_of_callback (h.called k' hbegun).1) hactive
  exact hbegun hk.idle

theorem Media.Asked.generation (hk : s.Asked k event) (h : s.camera.Announced) :
    event.generation = s.camera.camera.frames.generation := by
  obtain ⟨rest, firstError, hcall⟩ := hk.calls
  have hevent := h k event (by rw [hcall]; rfl)
  rw [hevent]
  rfl

end Calls

section Consistent

variable [DecidableEq T] {s s' : Media T D} {e : MediaEvent T D}

theorem setDetach_self (s : Media T D) (j : Option (Caller T)) (st : DetachState) :
    (s.setDetach j st).detaches j = st := Function.update_self ..

theorem setDetach_of_ne (s : Media T D) {j j' : Option (Caller T)} (st : DetachState)
    (h : j' ≠ j) : (s.setDetach j st).detaches j' = s.detaches j' := Function.update_of_ne h ..

theorem joins_setDetach {j : Option (Caller T)} {st : DetachState}
    (h : ∀ j thread channel ret, s.detaches j ≠ .joinFailed thread channel ret)
    (hst : ∀ thread channel ret, st ≠ .joinFailed thread channel ret) :
    ∀ j' thread channel ret, (s.setDetach j st).detaches j' ≠ .joinFailed thread channel ret := by
  intro j' thread channel ret
  by_cases hne : j' = j
  · rw [hne, setDetach_self]
    exact hst thread channel ret
  · rw [setDetach_of_ne s st hne]
    exact h j' thread channel ret

/-- A call of `detach_stream` goes on. -/
theorem Media.Consistent.advance (h : s.Consistent) {j : Option (Caller T)} {st : DetachState}
    (hj : s.detaches j ≠ .idle) (hst : ∀ thread channel ret, st ≠ .joinFailed thread channel ret)
    (hchannel : st.handle.2 = true → (s.detaches j).handle.2 = true) :
    (s.setDetach j st).Consistent := by
  refine h.keep rfl (joins_setDetach h.joins hst) (fun k hk => ⟨?_, rfl⟩) fun i hi => ⟨?_, rfl⟩
  · by_cases hne : some k = j
    · rw [hne]
      exact hj
    · rw [setDetach_of_ne s st hne] at hk
      exact hk
  · rw [handle_setDetach, Function.update_apply] at hi
    split at hi
    · rename_i heq
      rw [heq]
      exact hchannel hi
    · exact hi

/-- The first section of `detach_stream`. -/
theorem Media.Consistent.detach (h : s.Consistent) {j : Option (Caller T)}
    (hj : ∀ k, j = some k → (s.camera.calls k).callback = some none) :
    (detachStream s j).Consistent := by
  refine ⟨rfl, rfl, joins_setDetach h.joins (by intros; intro heq; cases heq), fun k hk => ?_,
    fun i hi => ?_⟩
  · refine ⟨?_, fun _ => rfl⟩
    by_cases hne : some k = j
    · exact hj k hne.symm
    · have hold : s.detaches (some k) ≠ .idle := by
        rwa [← setDetach_of_ne s (.taken s.globals.thread s.globals.channel) hne]
      exact (h.called k hold).1
  · rw [handle_detachStream, Function.update_apply] at hi
    split at hi
    · cases hi
    · rw [Function.update_apply] at hi
      split at hi
      · exact h.generation none hi
      · exact h.generation i hi

/-- The callback of the started event has its answer. -/
theorem Media.Consistent.answer (h : s.Consistent) {k : Caller T} {event : CameraStreamEvent}
    {ret : SysErr} (hk : s.Asked k event) : (s.setDetach (some k) (.done ret)).Consistent := by
  obtain ⟨rest, firstError, hcall⟩ := hk.calls
  refine ⟨h.paired, h.streaming, joins_setDetach h.joins (by intros; intro heq; cases heq),
    fun k' hk' => ?_, fun i hi => ?_⟩
  · by_cases hne : k' = k
    · subst hne
      show (s.camera.calls k').callback = _ ∧ ((s.camera.calls k').dropping = _ → _)
      rw [hcall]
      exact ⟨rfl, fun hdropping => by cases hdropping⟩
    · rw [setDetach_of_ne s _ fun heq => hne (Option.some.inj heq)] at hk'
      exact h.called k' hk'
  · rw [handle_setDetach_done s (some k) ret hk.idle] at hi
    exact h.generation i hi

theorem MediaStep.consistent [DecidableEq D] (h : s.Attached) (hP : 0 < P.uintMax)
    (hown : s.camera.Owned P) (hannounced : s.camera.Announced) (ho : Orderly s e)
    (hstep : MediaStep P s e s') : s'.Consistent := by
  have hc := h.consistent
  cases hstep with
  | @camera e camera houtside hnext =>
      have hother : ¬ TakesPart s.camera none e := by
        cases e with
        | consumer c action => exact houtside
        | callbackReturned k ret => exact houtside
        | _ => exact id
      have hby := step_bystander hP hown ⟨hnext, ho⟩ hother
      exact hc.keep rfl hc.joins (fun k hk => ⟨hk, hby.calls k (hc.called k hk).1⟩)
        fun i hi => ⟨hi, hby.unmoved.generation (h.handed.pos hi)⟩
  | refused hk => exact hc.answer hk
  | @failed k event thread memory create ret ch s₁ s₂ hk hnone hch hloop hact hrelease =>
      have hbegun := hk.alone hc hown
      have hgeneration := hk.generation hannounced
      obtain ⟨stream, hs, rfl⟩ := act_cases hact
      obtain ⟨stream', hs', rfl⟩ := act_cases hrelease
      apply Media.Consistent.answer
      · refine ⟨?_, ?_, hc.joins, fun k' hk' => absurd (hbegun k') hk', fun i _ => hgeneration⟩
        · show false = s.globals.thread.isSome
          rw [hnone]
          rfl
        · show false = s.globals.thread.isSome
          rw [hnone]
          rfl
      · exact ⟨hk.calls, hk.idle⟩
  | @attached k event thread memory create ch s₁ hk hnone hfree hch hloop hact =>
      have hbegun := hk.alone hc hown
      have hgeneration := hk.generation hannounced
      obtain ⟨stream, hs, rfl⟩ := act_cases hact
      apply Media.Consistent.answer
      · exact ⟨rfl, rfl, hc.joins, fun k' hk' => absurd (hbegun k') hk', fun i _ => hgeneration⟩
      · exact ⟨hk.calls, hk.idle⟩
  | @stopping k t event rest firstError hk hidle =>
      refine hc.detach fun k' hk' => ?_
      obtain rfl := Option.some.inj hk'
      rw [hk]
      rfl
  | @callbackReturned k ret camera hj hnext =>
      obtain ⟨hcamera, hcalls⟩ := callbackReturned_eq hnext
      refine hc.keep rfl (joins_setDetach hc.joins (by intros; intro heq; cases heq))
        (fun k' hk' => ?_) fun i hi => ⟨?_, ?_⟩
      · have hne : k' ≠ k := by
          rintro rfl
          exact hk' (setDetach_self ..)
        rw [setDetach_of_ne _ _ fun heq => hne (Option.some.inj heq)] at hk'
        exact ⟨hk', hcalls k' hne⟩
      · have hhandle : (Media.setDetach { s with camera := camera } (some k) .idle).handle =
            s.handle := by
          apply handle_setDetach_same
          show _ = (s.detaches (some k)).handle
          rw [hj]
          rfl
        rwa [hhandle] at hi
      · show camera.camera.frames.generation = _
        rw [hcamera]
  | stop hidle => exact hc.detach fun k hk => by cases hk
  | @stopReturned ret hj =>
      refine hc.advance ?_ (by intros; intro heq; cases heq) fun hi => by cases hi
      rw [hj]
      exact fun heq => by cases heq
  | @requested j ret thread channel hj =>
      have hadvance : (s.setDetach j (.join thread channel)).Consistent := hc.advance
        (by rw [hj]; exact fun heq => by cases heq) (by intros; intro heq; cases heq)
        (by rw [hj]; exact id)
      exact ⟨hadvance.paired, hadvance.streaming, hadvance.joins, hadvance.called,
        hadvance.generation⟩
  | @threadless j ret channel hj =>
      refine hc.advance ?_ (by intros; intro heq; cases heq) fun hi => ?_
      · rw [hj]
        exact fun heq => by cases heq
      · rw [hj]
        exact hi
  | joinFailed hj hret => exact absurd ho hret
  | @joined j thread channel t hj ht hexited =>
      have hadvance : (s.setDetach j (.release channel)).Consistent := hc.advance
        (by rw [hj]; exact fun heq => by cases heq) (by intros; intro heq; cases heq)
        (by rw [hj]; exact id)
      exact ⟨hadvance.paired, hadvance.streaming, hadvance.joins, hadvance.called,
        hadvance.generation⟩
  | restored hj => exact (hc.joins _ _ _ _ hj).elim
  | @released j ret s₁ hj hact =>
      obtain ⟨stream, hs, rfl⟩ := act_cases hact
      have hadvance : (s.setDetach j (.done .ok)).Consistent := hc.advance
        (by rw [hj]; exact fun heq => by cases heq) (by intros; intro heq; cases heq)
        (fun hi => by cases hi)
      exact ⟨hadvance.paired, hadvance.streaming, hadvance.joins, hadvance.called,
        hadvance.generation⟩
  | @unreferenced j ret hj =>
      refine hc.advance ?_ (by intros; intro heq; cases heq) fun hi => by cases hi
      rw [hj]
      exact fun heq => by cases heq
  | looped ht hloop => exact ⟨hc.paired, hc.streaming, hc.joins, hc.called, hc.generation⟩
  | @received thread ret t ch waited s₁ ht hloop hch hact =>
      obtain ⟨stream, hs, rfl⟩ := act_cases hact
      exact ⟨hc.paired, hc.streaming, hc.joins, hc.called, hc.generation⟩
  | checked ht hloop => exact hc.keep rfl hc.joins (fun k hk => ⟨hk, rfl⟩) fun i hi => ⟨hi, rfl⟩
  | @gaveBack thread ret t buffer s₁ ht hloop hact =>
      obtain ⟨stream, hs, rfl⟩ := act_cases hact
      exact ⟨hc.paired, hc.streaming, hc.joins, hc.called, hc.generation⟩
  | @setPort port =>
      have hport : zlmediaRealSetPort port s.globals =
          ((zlmediaRealSetPort port s.globals).1,
            { s.globals with port := (zlmediaRealSetPort port s.globals).2.port }) := by
        unfold zlmediaRealSetPort
        split <;> rfl
      rw [hport]
      exact hc.keep rfl hc.joins (fun k hk => ⟨hk, rfl⟩) fun i hi => ⟨hi, rfl⟩

theorem MediaStep.attached_of [DecidableEq D] (h : s.Attached) (hP : 0 < P.uintMax)
    (hown : s.camera.Owned P) (hannounced : s.camera.Announced) (ho : Orderly s e)
    (hstep : MediaStep P s e s') : s'.Attached :=
  ⟨hstep.handed h hP hown ho, hstep.buffered h hP hown ho,
    hstep.consistent h hP hown hannounced ho⟩

end Consistent

end Zlmedia
end AppCore
