/-
  AppCore.Camera.Labels

  Every buffer that is queued or with a consumer holds a whole frame of the stream that is up:
  the fields by which a consumer recognises a frame are always those of the stream.
-/

import AppCore.Camera.Backpressure
import AppCore.Camera.Bystander

namespace AppCore
namespace Camera

open Channel

variable {T C : Type*} {n : Nat} {P : Platform}

section Objects

variable [DecidableEq C] {s s' : Stream C n} {c : C} {pool : Pool n} {ch : SysChannel n}

/-- A receive hands out a buffer of the queue. -/
theorem receivedBuffer_mem (h : ch.Valid P) {timeoutMs ret : Int} {b : Fin n}
    (hb : receivedBuffer (receiveWake P timeoutMs ret ch).2.1 = some b) : b ∈ ch.items := by
  obtain ⟨-, hspec, -⟩ := receiveWake_spec h timeoutMs ret
  generalize receiveWake P timeoutMs ret ch = r at hspec hb
  obtain ⟨left, outcome, obs⟩ := r
  dsimp only at hspec hb
  generalize left.fifo = q at hspec
  cases hspec with
  | popped hitems =>
      have hitems : ch.items = _ := hitems
      obtain rfl := Option.some.inj hb
      rw [hitems]
      exact List.mem_cons_self
  | _ => cases hb

/-- A consumer gets a reference of a buffer only where the buffer was shared before. -/
theorem consume_shares (h : s.Linked P pool ch) {action : ConsumerAction}
    (hc : action.Owned s c) (hs : consume P c s action = some s') {c' : C} {b : Fin n}
    (hb : 0 < s'.held c' b) : s.Shares b := by
  by_cases hne : c' = c
  · subst hne
    cases action with
    | retain =>
        obtain ⟨ch', hch', rfl⟩ := Option.map_eq_some_iff.mp hs
        split at hb
        · exact Or.inr ⟨c', hb⟩
        · exact Or.inr ⟨c', hb⟩
    | release =>
        rw [(consume_release hs).2] at hb
        exact Or.inr ⟨c', hb⟩
    | receive timeoutMs ret =>
        obtain ⟨-, hheld⟩ := consume_receive h.channel_eq hs
        have hat := hheld b.val
        rw [heldAt_val, heldAt_val] at hat
        by_cases hpos : 0 < s.held c' b
        · exact Or.inr ⟨c', hpos⟩
        · have hreceived : (receivedBuffer (receiveWake P timeoutMs ret ch).2.1).map Fin.val =
              some b.val := by
            by_contra hnot
            rw [if_neg hnot] at hat
            omega
          obtain ⟨x, hx, hval⟩ := Option.map_eq_some_iff.mp hreceived
          rw [Fin.ext hval] at hx
          exact Or.inl ⟨ch, h.channel_eq, receivedBuffer_mem h.valid hx⟩
    | bufferRetain buffer =>
        obtain ⟨hlt, hpos⟩ := hc
        by_cases hbuffer : b = ⟨buffer, hlt⟩
        · rw [hbuffer]
          exact Or.inr ⟨c', hpos⟩
        · simp only [consume, dif_pos hlt] at hs
          obtain ⟨pool', -, rfl⟩ := Option.map_eq_some_iff.mp hs
          refine Or.inr ⟨c', ?_⟩
          split at hb
          · have hsame : Stream.held (Stream.setHeld { s with
                pool := some (sysBufferRetain P (some ⟨buffer, hlt⟩) pool').2 } c' ⟨buffer, hlt⟩
                  (s.held c' ⟨buffer, hlt⟩ + 1)) c' b = s.held c' b := by
              unfold Stream.setHeld
              dsimp only
              rw [Function.update_self, Function.update_of_ne hbuffer]
            rwa [← hsame]
          · exact hb
    | bufferRelease buffer =>
        obtain ⟨hlt, hpos⟩ := hc
        have hat := (consume_bufferRelease hs (by rw [heldAt_of_lt hlt]; exact hpos)).2 b.val
        rw [heldAt_val, heldAt_val] at hat
        refine Or.inr ⟨c', ?_⟩
        omega
  · refine Or.inr ⟨c', ?_⟩
    rwa [← (consume_step ⟨pool, ch, h⟩ hc hs).held c' hne]

end Objects

section Steps

variable {s s' : System T C} {buffer : Nat}

/-- A stream that is up keeps its number. -/
theorem step_generation [DecidableEq T] [DecidableEq C] {r : List Buffer} {e : Event T C}
    (hown : s.Owned P) (ho : s.camera.Ordered r) (hdown : ¬ s.camera.stream.Down)
    (hstep : (cameraMachine T C P).step s e s') :
    s'.camera.frames.generation = s.camera.frames.generation := by
  obtain ⟨hnext, hcontract⟩ := hstep
  cases next_cases hnext with
  | start hx =>
      show (_ : Frames).generation = _
      rw [System.after, System.setCall, start_frameIn hown hdown hx]
  | stop hx => exact congrArg Frames.generation (stop_ordered ho hx).frames
  | publish hx => exact congrArg Frames.generation (publish_ordered ho hx).frames
  | proceed hx =>
      have hholds := (hown.active (proceed_active hx)).1
      exact congrArg Frames.generation (proceed_ordered hholds ho hx).frames
  | @wake k ret x hx =>
      have hholds := (hown.active (wake_active hx)).1
      generalize s.calls k = st at hx hholds
      cases st with
      | teardown t event stage =>
          cases stage with
          | waiting eventRet => exact hholds.elim
          | _ => cases hx
      | _ => cases hx
  | producer hx => exact cameraProducer_generation hx
  | _ => rfl

/-- A buffer that is shared after a step was shared before it, or is queued now. -/
theorem step_shares [DecidableEq T] [DecidableEq C] {e : Event T C} (hP : 0 < P.uintMax)
    (hown : s.Owned P) (hstep : (cameraMachine T C P).step s e s') (hshares : s'.Shares buffer) :
    s.Shares buffer ∨ ∃ (h : buffer < s'.camera.blocks) (ch : SysChannel s'.camera.blocks),
      s'.camera.stream.channel = some ch ∧ ⟨buffer, h⟩ ∈ ch.items := by
  obtain ⟨hlt, ⟨ch, hch, hmem⟩ | ⟨c, hc⟩⟩ := hshares
  · exact Or.inr ⟨hlt, ch, hch, hmem⟩
  left
  have hpos : 0 < heldAt s'.camera.stream c buffer := by
    rw [heldAt_of_lt hlt]
    exact hc
  have hshared : ∀ {g : Globals C}, 0 < heldAt g.stream c buffer →
      ∃ h : buffer < g.blocks, g.stream.Shares ⟨buffer, h⟩ := by
    intro g hg
    unfold heldAt at hg
    split at hg
    · rename_i h
      exact ⟨h, Or.inr ⟨c, hg⟩⟩
    · exact absurd hg (Nat.lt_irrefl 0)
  by_cases htakes : TakesPart s c e
  · obtain ⟨hnext, hcontract⟩ := hstep
    cases next_cases hnext with
    | callbackReturned hst => exact hshared hpos
    | @consumer c' action stream hx =>
        obtain ⟨k, -, hothers⟩ := id hown
        obtain ⟨-, howned⟩ := contract_consumer hothers hcontract
        obtain ⟨pool, ch, hl⟩ := hown.live_of_consumer howned hx
        exact ⟨hlt, consume_shares hl howned hx hc⟩
    | _ => exact htakes.elim
  · rw [(step_bystander hP hown hstep htakes).unmoved.held buffer] at hpos
    exact hshared hpos

end Steps

section Runs

variable [DecidableEq T] [DecidableEq C] {s s' : System T C} {buffer : Nat}

omit [DecidableEq T] [DecidableEq C] in
theorem frameIn_of_queued {pool : Pool s.camera.blocks} (hpool : s.camera.stream.pool = some pool)
    (h : buffer < s.camera.blocks) :
    s.camera.frameIn buffer = some (content pool ⟨buffer, h⟩) := by
  unfold Globals.frameIn Stream.frame
  rw [dif_pos h, hpool]
  rfl

/-- What is queued or with a consumer at the end of a path. -/
theorem path_frames (hP : 0 < P.uintMax) {p : List (System T C × Event T C × System T C)}
    (hpath : (cameraMachine T C P).Path p s) : ∀ buffer, s.Shares buffer →
      ∃ i b, s.camera.frameIn buffer = some b ∧ IsFrame s.camera.frames.generation i b := by
  refine hpath.invariant (I := fun _ t => ∀ buffer, t.Shares buffer →
    ∃ i b, t.camera.frameIn buffer = some b ∧ IsFrame t.camera.frames.generation i b)
    (fun t hfresh buffer hshares => ?_) fun p u e v hp hu hstep buffer hshares => ?_
  · have hfresh : t.Fresh := hfresh
    obtain ⟨hlt, ⟨ch, hch, -⟩ | ⟨c, hc⟩⟩ := hshares
    · rw [hfresh.gone.channel] at hch
      cases hch
    · rw [hfresh.gone.held] at hc
      exact absurd hc (Nat.lt_irrefl 0)
  · have hown := owned_of_reachable hP hp.reachable
    rcases step_shares hP hown hstep hshares with hold | ⟨hlt, ch, hch, hmem⟩
    · -- the frame has not changed
      obtain ⟨i, b, hb, hframe⟩ := hu buffer hold
      have hdown : ¬ u.camera.stream.Down := fun hdown => hdown.not_shares hold.2
      refine ⟨i, b, ?_, ?_⟩
      · rw [step_frameIn hown hold hstep]
        exact hb
      · rw [step_generation hown (path_ordered hP hp) hdown hstep]
        exact hframe
    · -- the queue is in order
      obtain ⟨pool, hpool, ho⟩ := (path_ordered hP (hp.snoc hstep)).queued ch hch
      obtain ⟨j, hj, hat⟩ := List.mem_iff_getElem.mp hmem
      refine ⟨(received P (p ++ [(u, e, v)])).length + j, content pool ⟨buffer, hlt⟩,
        frameIn_of_queued hpool hlt, ?_⟩
      apply ho.inOrder
      rw [List.getElem?_append_right (Nat.le_add_right _ _), Nat.add_sub_cancel_left,
        List.getElem?_map, List.getElem?_eq_getElem hj, hat]
      rfl

/-- At every point of every run a buffer that is queued or with a consumer has the full size of
    a frame and all its labels, those of the stream that is up.  The bytes of the payload are not
    modelled. -/
theorem shared_is_frame (hP : 0 < P.uintMax) (h : (cameraMachine T C P).Reachable s)
    (hshares : s.Shares buffer) :
    ∃ i b, s.camera.frameIn buffer = some b ∧ IsFrame s.camera.frames.generation i b := by
  obtain ⟨p, hpath⟩ := h.exists_path
  exact path_frames hP hpath buffer hshares

end Runs

theorem shared_is_frame_kept :
    ∃ (s : System Unit Bool) (i : Nat) (b : Buffer), s.camera.frameIn 1 = some b ∧
      IsFrame s.camera.frames.generation i b := by
  obtain ⟨s, hexec, hshares⟩ := Option.bind_eq_some_iff.mp (show
    (Machine.execIf (next .lp64) Contract (System.initial Unit Bool) keptFrames).bind
      (fun s => if s.Shares 1 then some () else none) = some () by decide)
  have hreach : (cameraMachine Unit Bool .lp64).Reachable s :=
    ⟨_, _, System.initial_fresh, Machine.Run.of_execIf hexec⟩
  have hshares : s.Shares 1 := by
    by_contra hnot
    rw [if_neg hnot] at hshares
    cases hshares
  exact ⟨s, shared_is_frame (by decide) hreach hshares⟩

end Camera
end AppCore
