/-
  AppCore.Zlmedia.Consumer

  The consumer threads: what they receive is always a frame of the stream the module is
  attached to, and a call that detaches the module gets to its end by the module's own steps,
  whatever the camera and the others are waiting for.
-/

import AppCore.Zlmedia.Refinement
import AppCore.Camera.Labels

namespace AppCore
namespace Zlmedia

open Channel Camera

variable {T D : Type*} {P : Platform}

/-! ## The frames -/

section Frames

variable [DecidableEq T] [DecidableEq D] {s : Media T D} {θ buffer : Nat} {t : ConsumerThread}

/-- While a module has a thread, the stream is up. -/
theorem live_of_thread (hP : 0 < P.uintMax) (h : (mediaMachine T D P).Reachable s)
    (ht : s.threads θ = some t) : s.camera.camera.stream.Live P := by
  obtain ⟨hattached, hreach⟩ := attached_of_reachable hP h
  refine (owned_of_reachable hP hreach).live_or_down.resolve_right fun hdown => ?_
  have hpos := hattached.refs_pos ht
  rw [(hdown.free none).1] at hpos
  exact Nat.lt_irrefl 0 hpos

/-- Every buffer that a thread of the module receives passes its test: the type, the version and
    the number of the stream are those the module was attached with. -/
theorem accepts_of_check (hP : 0 < P.uintMax) (h : (mediaMachine T D P).Reachable s)
    (ht : s.threads θ = some t) (hloop : t.loop = .check buffer) :
    ∃ (hlt : buffer < s.camera.camera.blocks) (pool : Pool s.camera.camera.blocks),
      s.camera.camera.stream.pool = some pool ∧
      s.globals.accepts (pool.buffers ⟨buffer, hlt⟩) = true := by
  obtain ⟨hattached, hreach⟩ := attached_of_reachable hP h
  have hpos := hattached.heldAt_pos ht (Or.inl hloop)
  obtain ⟨hlt, hheld⟩ := holdsBuffer_of_pos hpos
  have hshares : s.camera.Shares buffer := ⟨hlt, Or.inr ⟨none, hheld⟩⟩
  obtain ⟨p, hpath⟩ := hreach.exists_path
  obtain ⟨i, b, hframe, hb⟩ := path_frames hP hpath buffer hshares
  obtain ⟨pool, ch, hl⟩ := live_of_thread hP h ht
  rw [frameIn_of_queued hl.pool_eq hlt] at hframe
  obtain rfl := Option.some.inj hframe
  -- the thread has an owner, so the number is the one of the stream that is up
  have halive : s.threads θ ≠ none := by
    rw [ht]
    exact fun heq => by cases heq
  obtain ⟨owner, howner⟩ := hattached.handed.held_of_alive θ halive
  have hgeneration := hattached.consistent.generation owner
    (hattached.handed.backed owner θ howner)
  refine ⟨hlt, pool, hl.pool_eq, ?_⟩
  have htype : (pool.buffers ⟨buffer, hlt⟩).type = cameraBufferTypeVideoFrame := hb.type
  have hversion : (pool.buffers ⟨buffer, hlt⟩).version = cameraBufferFormatVersion := hb.version
  have hnumber : (pool.buffers ⟨buffer, hlt⟩).generation = s.globals.streamGeneration :=
    hb.generation.trans hgeneration.symm
  simp [Globals.accepts, htype, hversion, hnumber]

/-- The module passes over no frame: in every run each buffer that one of its threads receives
    passes the test for the type, the version and the number of the stream, is counted, and is
    given back next. -/
theorem received_consumed (hP : 0 < P.uintMax) (h : (mediaMachine T D P).Reachable s)
    {s' : Media T D} {ret : Int} (ht : s.threads θ = some t) (hloop : t.loop = .check buffer)
    (hstep : (mediaMachine T D P).step s (.consumer θ ret) s') :
    (∃ (hlt : buffer < s.camera.camera.blocks) (pool : Pool s.camera.camera.blocks),
      s.camera.camera.stream.pool = some pool ∧
      s.globals.accepts (pool.buffers ⟨buffer, hlt⟩) = true) ∧
    s'.globals.consumedFrames = s.globals.consumedFrames + 1 ∧
    s'.threads θ = some { t with loop := .release buffer } := by
  obtain ⟨hlt, pool, hpool, haccepts⟩ := accepts_of_check hP h ht hloop
  have hsection : zlmediaConsumer P s θ ret = some s' := hstep.1
  simp only [zlmediaConsumer, ht, hloop, Media.checkSection, dif_pos hlt, hpool,
    Option.map_some, if_pos haccepts] at hsection
  obtain rfl := Option.some.inj hsection
  refine ⟨⟨hlt, pool, hpool, haccepts⟩, rfl, ?_⟩
  show Function.update s.threads θ _ θ = _
  rw [Function.update_self, ht]
  rfl

end Frames

theorem received_consumed_frame :
    ∃ s s' : Media Unit Empty, (∃ (hlt : 0 < s.camera.camera.blocks)
      (pool : Pool s.camera.camera.blocks), s.camera.camera.stream.pool = some pool ∧
      s.globals.accepts (pool.buffers ⟨0, hlt⟩) = true) ∧
      s'.globals.consumedFrames = s.globals.consumedFrames + 1 ∧
      s'.threads 7 = some { loop := .release 0 } := by
  obtain ⟨s', hexec, -⟩ := Option.map_eq_some_iff.mp (show
    ((Machine.execIf (next .lp64) Orderly (Media.initial Unit Empty) oneFrame).bind
      (fun s => if s.threads 7 = some { loop := .check 0 } then next .lp64 s (.consumer 7 0)
        else none)).map (fun _ => ()) = some () by decide)
  obtain ⟨s, hs, hnext⟩ := Option.bind_eq_some_iff.mp hexec
  obtain ⟨ht, hnext⟩ := Option.ite_none_right_eq_some.mp hnext
  have hreach : (mediaMachine Unit Empty .lp64).Reachable s :=
    ⟨_, _, Media.initial_fresh, Machine.Run.of_execIf hs⟩
  exact ⟨s, s', received_consumed (by decide) hreach ht rfl ⟨hnext, trivial⟩⟩

/-! ## The threads that were asked to stop -/

/-- Who joins a thread has asked it to stop. -/
def Media.Asks (s : Media T D) : Prop :=
  ∀ j θ channel, s.detaches j = .join θ channel →
    ∃ t, s.threads θ = some t ∧ t.stopRequested = true

section Asks

variable [DecidableEq T] {s s' : Media T D} {e : MediaEvent T D}

omit [DecidableEq T] in
/-- A thread moves, and the calls stay where they are. -/
theorem Media.Asks.goto (h : s.Asks) {θ : Nat} {loop : ConsumerLoop} {s₁ : Media T D}
    (hthreads : s₁.threads = s.threads) (hdetaches : s₁.detaches = s.detaches) :
    (s₁.goto θ loop).Asks := by
  intro j θ' channel hj
  have hj : s₁.detaches j = .join θ' channel := hj
  rw [hdetaches] at hj
  obtain ⟨t, ht, hstop⟩ := h j θ' channel hj
  by_cases heq : θ' = θ
  · refine ⟨{ t with loop := loop }, ?_, hstop⟩
    show Function.update s₁.threads θ _ θ' = _
    rw [← heq, Function.update_self, hthreads, ht]
    rfl
  · refine ⟨t, ?_, hstop⟩
    show Function.update s₁.threads θ _ θ' = _
    rw [Function.update_of_ne heq, hthreads]
    exact ht

/-- A call moves to a point that is not the join. -/
theorem Media.Asks.setDetach (h : s.Asks) {j : Option (Caller T)} {st : DetachState}
    (hst : ∀ θ channel, st ≠ .join θ channel) {s₁ : Media T D} (hthreads : s₁.threads = s.threads)
    (hdetaches : s₁.detaches = s.detaches) : (s₁.setDetach j st).Asks := by
  intro j' θ channel hj'
  by_cases hne : j' = j
  · rw [hne, setDetach_self] at hj'
    exact absurd hj' (hst θ channel)
  · rw [setDetach_of_ne _ _ hne, hdetaches] at hj'
    show ∃ t, s₁.threads θ = some t ∧ _
    rw [hthreads]
    exact h j' θ channel hj'

theorem MediaStep.asks [DecidableEq D] (h : s.Asks) (hattached : s.Attached)
    (hstep : MediaStep P s e s') : s'.Asks := by
  have hh := hattached.handed
  cases hstep with
  | camera houtside hnext => exact h
  | refused hk => exact h.setDetach (by intros; intro heq; cases heq) rfl rfl
  | failed hk hnone hch hloop hact hrelease =>
      obtain ⟨stream, hs, rfl⟩ := act_cases hact
      obtain ⟨stream', hs', rfl⟩ := act_cases hrelease
      exact h.setDetach (by intros; intro heq; cases heq) rfl rfl
  | @attached k event thread memory create ch s₁ hk hnone hfree hch hloop hact =>
      obtain ⟨stream, hs, rfl⟩ := act_cases hact
      have hnew : Media.Asks { s with threads := Function.update s.threads thread (some {}) } := by
        intro j θ channel hj
        obtain ⟨t, ht, hstop⟩ := h j θ channel hj
        have hne : θ ≠ thread := by
          rintro rfl
          rw [hfree] at ht
          cases ht
        exact ⟨t, (Function.update_of_ne hne ..).trans ht, hstop⟩
      exact hnew.setDetach (by intros; intro heq; cases heq) rfl rfl
  | stopping hk hidle => exact h.setDetach (by intros; intro heq; cases heq) rfl rfl
  | callbackReturned hj hnext => exact h.setDetach (by intros; intro heq; cases heq) rfl rfl
  | stop hidle => exact h.setDetach (by intros; intro heq; cases heq) rfl rfl
  | stopReturned hj => exact h.setDetach (by intros; intro heq; cases heq) rfl rfl
  | @requested j ret thread channel hj =>
      have halive : s.threads thread ≠ none := by
        apply hh.alive_of_held (some j)
        show (s.detaches j).handle.1 = _
        rw [hj]
        rfl
      obtain ⟨t, ht⟩ := Option.ne_none_iff_exists'.mp halive
      have hasked : (s.requestStop thread).threads thread =
          some { t with stopRequested := true } := by
        show Function.update s.threads thread _ thread = _
        rw [Function.update_self, ht]
        rfl
      intro j' θ channel' hj'
      show ∃ t, (s.requestStop thread).threads θ = some t ∧ _
      by_cases heq : θ = thread
      · rw [heq]
        exact ⟨_, hasked, rfl⟩
      · by_cases hne : j' = j
        · rw [hne, setDetach_self] at hj'
          exact absurd (DetachState.join.inj hj').1.symm heq
        · rw [setDetach_of_ne _ _ hne] at hj'
          obtain ⟨t', ht', hstop⟩ := h j' θ channel' hj'
          exact ⟨t', (Function.update_of_ne heq ..).trans ht', hstop⟩
  | threadless hj => exact h.setDetach (by intros; intro heq; cases heq) rfl rfl
  | joinFailed hj hret => exact h.setDetach (by intros; intro heq; cases heq) rfl rfl
  | @joined j thread channel t hj ht hexited =>
      intro j' θ channel' hj'
      have hne : j' ≠ j := by
        rintro rfl
        rw [setDetach_self] at hj'
        cases hj'
      rw [setDetach_of_ne _ _ hne] at hj'
      have hj' : s.detaches j' = .join θ channel' := hj'
      obtain ⟨t', ht', hstop⟩ := h j' θ channel' hj'
      -- two calls do not join one thread
      have hother : θ ≠ thread := by
        rintro rfl
        have hsame := hh.unique (some j) (some j') θ (by
          show (s.detaches j).handle.1 = _
          rw [hj]
          rfl) (by
          show (s.detaches j').handle.1 = _
          rw [hj']
          rfl)
        exact hne (Option.some.inj hsame).symm
      exact ⟨t', (Function.update_of_ne hother ..).trans ht', hstop⟩
  | restored hj => exact h.setDetach (by intros; intro heq; cases heq) rfl rfl
  | released hj hact =>
      obtain ⟨stream, hs, rfl⟩ := act_cases hact
      exact h.setDetach (by intros; intro heq; cases heq) rfl rfl
  | unreferenced hj => exact h.setDetach (by intros; intro heq; cases heq) rfl rfl
  | looped ht hloop => exact h.goto rfl rfl
  | received ht hloop hch hact =>
      obtain ⟨stream, hs, rfl⟩ := act_cases hact
      exact h.goto rfl rfl
  | @checked thread ret t buffer consumed ht hloop =>
      exact (h.goto rfl rfl : (s.goto thread (.release buffer)).Asks)
  | gaveBack ht hloop hact =>
      obtain ⟨stream, hs, rfl⟩ := act_cases hact
      exact h.goto rfl rfl
  | setPort => exact h

theorem asks_of_reachable [DecidableEq D] (hP : 0 < P.uintMax)
    (h : (mediaMachine T D P).Reachable s) : s.Asks := by
  have hboth := h.invariant (I := fun t => (mediaMachine T D P).Reachable t ∧ t.Asks)
    (fun t hfresh => ⟨⟨t, [], hfresh, Machine.Run.nil⟩, fun j θ channel hj => ?_⟩)
    fun u e v hu hstep => ⟨hu.1.step hstep,
      (next_cases hstep.1).asks hu.2 (attached_of_reachable hP hu.1).1⟩
  · exact hboth.2
  · have hfresh : t.Fresh := hfresh
    rw [hfresh.detaches] at hj
    cases hj

end Asks

/-! ## The end of a detach -/

/-- How many sections a thread that was asked to stop has left at most, when no wait is
    repeated. -/
def ConsumerLoop.rank : ConsumerLoop → Nat
  | .exited => 0
  | .condition => 1
  | .release _ => 2
  | .check _ => 3
  | .waiting => 4
  | .receive => 5

theorem ConsumerLoop.rank_le (loop : ConsumerLoop) : loop.rank ≤ 5 := by
  cases loop <;> simp [ConsumerLoop.rank]

/-- How many sections of the module a call of `detach_stream` has left at most. -/
def DetachState.remaining (threads : Nat → Option ConsumerThread) : DetachState → Nat
  | .taken _ _ => 8
  | .join θ _ => 2 + ((threads θ).map fun t => t.loop.rank).getD 0
  | .release _ => 1
  | _ => 0

/-- The module's own steps that bring the call `j` to its end. -/
def MediaEvent.Own (j : Option (Caller T)) : MediaEvent T D → Prop
  | .detach j' ret => j' = j ∧ ret = 0
  | .consumer _ _ => True
  | _ => False

section Progress

variable {s s' : Media T D} {θ : Nat} {t : ConsumerThread} {j : Option (Caller T)}

/-- A thread has moved from `loop` to a point nearer to its end. -/
structure Nearer (s s' : Media T D) (θ : Nat) (loop : ConsumerLoop) : Prop where
  thread : ∃ t', s'.threads θ = some t' ∧ t'.loop.rank < loop.rank
  detaches : s'.detaches = s.detaches

theorem Nearer.goto {s₁ : Media T D} {loop : ConsumerLoop} (ht : s.threads θ = some t)
    (hthreads : s₁.threads = s.threads) (hdetaches : s₁.detaches = s.detaches)
    (hrank : loop.rank < t.loop.rank) : Nearer s (s₁.goto θ loop) θ t.loop := by
  refine ⟨⟨{ t with loop := loop }, ?_, hrank⟩, hdetaches⟩
  show Function.update s₁.threads θ _ θ = _
  rw [Function.update_self, hthreads, ht]
  rfl

/-- A wait that has timed out is over. -/
theorem afterReceive_timedOut {n : Nat} (ch : SysChannel n) :
    (afterReceive (receiveWake P 200 ETIMEDOUT ch).2.1).rank < ConsumerLoop.waiting.rank := by
  have hne : waitResult ETIMEDOUT ≠ .ok := by decide
  unfold receiveWake
  rw [if_pos hne]
  show (afterReceive (.leave (waitResult ETIMEDOUT) none : ReceiveOutcome n)).rank < _
  simp only [afterReceive]
  split
  · decide
  · split <;> decide

theorem afterReceive_rank {n : Nat} (outcome : ReceiveOutcome n) :
    (afterReceive outcome).rank < ConsumerLoop.receive.rank := by
  cases outcome with
  | wait => simp [afterReceive, ConsumerLoop.rank]
  | leave ret out =>
      simp only [afterReceive]
      split
      · simp [ConsumerLoop.rank]
      · split
        · simp [ConsumerLoop.rank]
        · split
          · simp [ConsumerLoop.rank]
          · cases out <;> simp [ConsumerLoop.rank]

variable [DecidableEq T] [DecidableEq D]

/-- A thread that was asked to stop can always go on towards its end. -/
theorem thread_nearer (hP : 0 < P.uintMax) (h : (mediaMachine T D P).Reachable s)
    (ht : s.threads θ = some t) (hstop : t.stopRequested = true) (hloop : t.loop ≠ .exited) :
    ∃ ret s', (mediaMachine T D P).step s (.consumer θ ret) s' ∧ Nearer s s' θ t.loop := by
  obtain ⟨pool, ch, hl⟩ := live_of_thread hP h ht
  obtain ⟨hattached, -⟩ := attached_of_reachable hP h
  have hreceive : ∀ ret, (afterReceive (receiveWake P 200 ret ch).2.1).rank < t.loop.rank →
      ∃ s', s.receiveSection P θ ret = some s' ∧ Nearer s s' θ t.loop := by
    intro ret hrank
    obtain ⟨s₁, hact⟩ : ∃ s₁, s.act P (.receive 200 ret) = some s₁ := by
      simp [Media.act, Camera.next, consume, hl.channel_eq]
    obtain ⟨stream, hs, rfl⟩ := act_cases hact
    refine ⟨(s.withStream stream).goto θ (afterReceive (receiveWake P 200 ret ch).2.1), ?_,
      Nearer.goto ht rfl rfl hrank⟩
    simp only [Media.receiveSection, hl.channel_eq, hact]
    rfl
  have hnear : ∀ ret s', zlmediaConsumer P s θ ret = some s' → Nearer s s' θ t.loop →
      ∃ ret s', (mediaMachine T D P).step s (.consumer θ ret) s' ∧ Nearer s s' θ t.loop :=
    fun ret s' hs' hnearer => ⟨ret, s', ⟨hs', trivial⟩, hnearer⟩
  cases hat : t.loop with
  | condition =>
      rw [← hat]
      apply hnear 0 (s.goto θ .exited)
      · simp [zlmediaConsumer, ht, hat, hstop]
      · exact Nearer.goto ht rfl rfl (by rw [hat]; decide)
  | receive =>
      obtain ⟨s', hs', hnearer⟩ := hreceive 0 (by rw [hat]; exact afterReceive_rank _)
      rw [← hat]
      apply hnear 0 s' _ hnearer
      simp only [zlmediaConsumer, ht, hat]
      exact hs'
  | waiting =>
      obtain ⟨s', hs', hnearer⟩ := hreceive ETIMEDOUT (by rw [hat]; exact afterReceive_timedOut ch)
      rw [← hat]
      apply hnear ETIMEDOUT s' _ hnearer
      simp only [zlmediaConsumer, ht, hat]
      exact hs'
  | check buffer =>
      obtain ⟨hlt, pool', hpool, haccepted⟩ := accepts_of_check hP h ht hat
      have hnearer : Nearer s (s.goto θ (.release buffer)) θ t.loop :=
        Nearer.goto ht rfl rfl (by rw [hat]; exact Nat.lt_succ_self 2)
      rw [← hat]
      apply hnear 0 { s.goto θ (.release buffer) with
        globals := { s.globals with consumedFrames := s.globals.consumedFrames + 1 } }
      · simp [zlmediaConsumer, ht, hat, Media.checkSection, hlt, hpool, haccepted]
      · exact ⟨hnearer.thread, hnearer.detaches⟩
  | release buffer =>
      obtain ⟨hlt, -⟩ := holdsBuffer_of_pos (hattached.heldAt_pos ht (Or.inr hat))
      obtain ⟨s₁, hact⟩ : ∃ s₁, s.act P (.bufferRelease buffer) = some s₁ := by
        simp [Media.act, Camera.next, consume, hlt, hl.pool_eq]
      obtain ⟨stream, hs, rfl⟩ := act_cases hact
      rw [← hat]
      apply hnear 0 ((s.withStream stream).goto θ .condition)
      · simp only [zlmediaConsumer, ht, hat, hact]
        rfl
      · exact Nearer.goto ht rfl rfl (by rw [hat]; exact Nat.lt_succ_self 1)
  | exited => exact absurd hat hloop

theorem rank_getD_le (t : Option ConsumerThread) :
    (t.map fun t => t.loop.rank).getD 0 ≤ 5 := by
  cases t with
  | none => exact Nat.zero_le 5
  | some t => exact t.loop.rank_le

theorem DetachState.remaining_le (threads : Nat → Option ConsumerThread) (st : DetachState) :
    st.remaining threads ≤ 8 := by
  cases st with
  | taken thread channel => exact Nat.le_refl 8
  | join θ channel =>
      have hle := rank_getD_le (threads θ)
      show 2 + _ ≤ 8
      omega
  | release channel =>
      show 1 ≤ 8
      decide
  | _ => exact Nat.zero_le 8

/-- How many sections a call has left at most. -/
def Media.remaining (s : Media T D) (j : Option (Caller T)) : Nat :=
  (s.detaches j).remaining s.threads

/-- A call of `detach_stream` can always go on towards its end. -/
theorem detach_nearer (hP : 0 < P.uintMax) (h : (mediaMachine T D P).Reachable s)
    (hbegun : s.detaches j ≠ .idle) (hdone : ¬ ∃ ret, s.detaches j = .done ret) :
    ∃ e s', e.Own j ∧ (mediaMachine T D P).step s e s' ∧ s'.detaches j ≠ .idle ∧
      s'.remaining j < s.remaining j := by
  obtain ⟨hattached, hreach⟩ := attached_of_reachable hP h
  -- a section of the call itself
  have hsection : ∀ (s₁ : Media T D) st, detachSection P s j 0 = some (s₁.setDetach j st) →
      st ≠ .idle → st.remaining s₁.threads < s.remaining j →
      ∃ e s', e.Own j ∧ (mediaMachine T D P).step s e s' ∧ s'.detaches j ≠ .idle ∧
        s'.remaining j < s.remaining j := by
    intro s₁ st hs hst hlt
    refine ⟨.detach j 0, s₁.setDetach j st, ⟨rfl, rfl⟩, ⟨hs, rfl⟩, ?_, ?_⟩
    · rw [setDetach_self]
      exact hst
    · rw [Media.remaining, setDetach_self]
      exact hlt
  cases hj : s.detaches j with
  | idle => exact absurd hj hbegun
  | taken thread channel =>
      cases thread with
      | none =>
          apply hsection s (.release channel)
          · simp only [detachSection, hj]
          · exact fun heq => by cases heq
          · rw [Media.remaining, hj]
            show 1 < 8
            decide
      | some θ =>
          apply hsection (s.requestStop θ) (.join θ channel)
          · simp only [detachSection, hj]
          · exact fun heq => by cases heq
          · have hle := rank_getD_le ((s.requestStop θ).threads θ)
            rw [Media.remaining, hj]
            show 2 + _ < 8
            omega
  | join θ channel =>
      obtain ⟨t, ht, hstop⟩ := asks_of_reachable hP h j θ channel hj
      by_cases hexited : t.loop = .exited
      · apply hsection { s with threads := Function.update s.threads θ none } (.release channel)
        · simp only [detachSection, hj, ht, hexited]
          rfl
        · exact fun heq => by cases heq
        · rw [Media.remaining, hj]
          show 1 < 2 + _
          omega
      · obtain ⟨ret, s', hstep, hnearer⟩ := thread_nearer hP h ht hstop hexited
        obtain ⟨t', ht', hrank⟩ := hnearer.thread
        have hj' : s'.detaches j = .join θ channel := by
          rw [hnearer.detaches]
          exact hj
        refine ⟨.consumer θ ret, s', trivial, hstep, ?_, ?_⟩
        · rw [hj']
          exact fun heq => by cases heq
        · rw [Media.remaining, Media.remaining, hj', hj]
          show 2 + ((s'.threads θ).map fun t => t.loop.rank).getD 0 <
            2 + ((s.threads θ).map fun t => t.loop.rank).getD 0
          rw [ht, ht']
          exact Nat.add_lt_add_left hrank 2
  | joinFailed θ channel ret => exact (hattached.consistent.joins _ _ _ _ hj).elim
  | release channel =>
      cases channel with
      | false =>
          apply hsection s (.done .ok)
          · simp only [detachSection, hj]
            rfl
          · exact fun heq => by cases heq
          · rw [Media.remaining, hj]
            exact Nat.one_pos
      | true =>
          have hpos : 0 < s.camera.camera.stream.refs none := by
            apply Family.Holding.pos hattached.handed (i := some j)
            show (s.detaches j).handle.2 = true
            rw [hj]
            rfl
          obtain ⟨pool, ch, hl⟩ :=
            (owned_of_reachable hP hreach).live_or_down.resolve_right fun hdown => by
              rw [(hdown.free none).1] at hpos
              exact Nat.lt_irrefl 0 hpos
          obtain ⟨s₁, hact⟩ : ∃ s₁, s.act P .release = some s₁ := by
            simp [Media.act, Camera.next, consume, hl.channel_eq]
          apply hsection s₁ (.done .ok)
          · simp only [detachSection, hj, hact]
            rfl
          · exact fun heq => by cases heq
          · rw [Media.remaining, hj]
            exact Nat.one_pos
  | done ret => exact absurd ⟨ret, hj⟩ hdone

/-- Whatever the camera, its producer and its other users are doing, a call that detaches the
    module gets to its end by at most eight sections of its own and of the thread it joins:
    the callback that the camera waits for never waits for the camera. -/
theorem detach_finishes (hP : 0 < P.uintMax) (h : (mediaMachine T D P).Reachable s)
    (hbegun : s.detaches j ≠ .idle) :
    ∃ es s', (∀ e ∈ es, e.Own j) ∧ es.length ≤ 8 ∧ (mediaMachine T D P).Run s es s' ∧
      ∃ ret, s'.detaches j = .done ret := by
  obtain ⟨es, s', hown, hlength, hrun, -, hdone⟩ := Machine.exists_run_of_measure
    (M := mediaMachine T D P) (A := MediaEvent.Own j)
    (I := fun t => (mediaMachine T D P).Reachable t ∧ t.detaches j ≠ .idle)
    (Q := fun t => ∃ ret, t.detaches j = .done ret) (fun t => t.remaining j)
    (fun u hu hdone => by
      obtain ⟨e, v, he, hstep, hbegun', hlt⟩ := detach_nearer hP hu.1 hu.2 hdone
      exact ⟨e, v, he, hstep, ⟨hu.1.step hstep, hbegun'⟩, hlt⟩) ⟨h, hbegun⟩
  exact ⟨es, s', hown, Nat.le_trans hlength (DetachState.remaining_le _ _), hrun, hdone⟩

end Progress

/-- `zlmedia_stop` while the thread of the module has a frame and the stream goes on. -/
theorem detach_finishes_frame :
    ∃ (s s' : Media Unit Empty) (es : List (MediaEvent Unit Empty)),
      s.detaches none = .taken (some 7) true ∧ es.length ≤ 8 ∧
      (mediaMachine Unit Empty .lp64).Run s es s' ∧ ∃ ret, s'.detaches none = .done ret := by
  obtain ⟨s, hexec, hj⟩ := Option.map_eq_some_iff.mp (show
    (Machine.execIf (next .lp64) Orderly (Media.initial Unit Empty) (oneFrame ++ [.stop])).map
      (fun s => s.detaches none) = some (.taken (some 7) true) by decide)
  have hreach : (mediaMachine Unit Empty .lp64).Reachable s :=
    ⟨_, _, Media.initial_fresh, Machine.Run.of_execIf hexec⟩
  have hbegun : s.detaches none ≠ .idle := by
    rw [hj]
    exact fun heq => by cases heq
  obtain ⟨es, s', -, hlength, hrun, hdone⟩ := detach_finishes (by decide) hreach hbegun
  exact ⟨s, s', es, hj, hlength, hrun, hdone⟩

end Zlmedia
end AppCore
