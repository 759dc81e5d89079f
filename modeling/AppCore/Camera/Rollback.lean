/-
  AppCore.Camera.Rollback

  A start that fails leaves nothing behind, wherever it fails, whatever the producer, the
  consumers and the other callers do meanwhile.
-/

import AppCore.Camera.Calls

namespace AppCore
namespace Camera

open Channel

variable {T C : Type*} {P : Platform}

/-- A publication of an event. -/
def Obs.publishes (eventId : UInt32) : Obs → Bool
  | .published i _ => i = eventId
  | _ => false

/-- How often an event was published. -/
def publications (eventId : UInt32) (done : List Obs) : Nat := done.countP (Obs.publishes eventId)

/-- What was done was undone: the pool was destroyed with all its buffers back, the channel was
    freed, it was closed before the producer was joined, and the consumers were told as often
    that the stream stops as that it has started. -/
structure Undone (done : List Obs) : Prop where
  pool : ∀ n, .poolCreated n ∈ done → .poolDestroyed (List.replicate n 0) ∈ done
  buffers : ∀ counts, .poolDestroyed counts ∈ done → ∀ x ∈ counts, x = 0
  channel : .channelCreated ∈ done → .channelFreed ∈ done
  joined : .threadCreated ∈ done →
    ∃ before between after, done = before ++ .channelClosed :: (between ++ .threadJoined :: after)
  published : publications cameraEventStreamStopping done =
    publications cameraEventStreamStarted done
  published_le : publications cameraEventStreamStarted done ≤ 1

theorem GaveUp.undone {n : Nat} {done : List Obs} (h : GaveUp n done) : Undone done := by
  cases h with
  | pool =>
      exact ⟨by simp, by simp, by simp, by simp, rfl, Nat.zero_le 1⟩
  | channel =>
      exact ⟨by simp, by simp, by simp, by simp, rfl, Nat.zero_le 1⟩
  | thread =>
      exact ⟨by simp, by simp, by simp, by simp, rfl, Nat.zero_le 1⟩

theorem rolledBackObs_undone (n : Nat) (event : CameraStreamEvent) :
    Undone (rolledBackObs n event) := by
  refine ⟨by simp [rolledBackObs, createdObs], by simp [rolledBackObs, createdObs],
    by simp [rolledBackObs, createdObs], fun _ => ?_, rfl, Nat.le_refl 1⟩
  exact ⟨createdObs n ++ [.published cameraEventStreamStarted event], [],
    [.published cameraEventStreamStopping event, .channelFreed,
      .poolDestroyed (List.replicate n 0)], rfl⟩

/-- The machine as long as the call `k` is past its section under the mutex. -/
def callMachine (T C : Type*) [DecidableEq T] [DecidableEq C] (P : Platform) (k : Caller T) :
    Machine (System T C) (Event T C) :=
  (Machine.ofNext System.Fresh (next P)).restrict fun s e _ =>
    Contract s e ∧ (s.calls k).Active

section Attempt

variable {s s' u : System T C} {k : Caller T} {e : Event T C}

/-- A start of the call `k` that found a camera with the record `trace`: it goes on, or it has
    returned. -/
inductive Attempt (trace : List Obs) (k : Caller T) (s : System T C) : Prop
  | goesOn {new} : (s.calls k).Active → s.camera.trace = trace ++ new →
      (s.calls k).Traced s.camera.blocks new → Attempt trace k s
  | returned {ret} : s.calls k = .returned ret →
      (ret ≠ .ok → s.camera.Idle ∧ ∃ new, s.camera.trace = trace ++ new ∧ Undone new) →
      Attempt trace k s

/-- A call that has traced its way is past the mutex, or has returned. -/
theorem CallState.Traced.cases {st : CallState C} {n : Nat} {new : List Obs}
    (h : st.Traced n new) : st.Active ∨ ∃ ret, st = .returned ret := by
  cases st with
  | created event => exact Or.inl trivial
  | starting event pending firstError => exact Or.inl trivial
  | teardown t event stage => exact Or.inl trivial
  | returned ret => exact Or.inr ⟨ret, rfl⟩
  | _ => exact h.elim

/-- In every reachable state the camera has no resources when it is `STOPPED`. -/
theorem System.Owned.idle (h : s.Owned P) (hstopped : s.camera.state = .stopped) :
    s.camera.Idle := by
  rcases h.cases with ⟨hidle | hup, -⟩ | ⟨k₀, hk₀⟩
  · exact hidle
  · rw [hup.state] at hstopped
    cases hstopped
  · rcases (h.active hk₀).1.busy hk₀ with hstate | hstate
    · rw [hstate] at hstopped
      cases hstopped
    · rw [hstate] at hstopped
      cases hstopped

variable [DecidableEq T]

/-- Every step while the call is past the mutex carries its start on. -/
theorem Attempt.step {trace : List Obs} (h : Attempt trace k s) (howned : s.Owned P)
    (hactive : (s.calls k).Active) (hmoves : Moves P s s') : Attempt trace k s' := by
  cases h with
  | returned hret =>
      rw [hret] at hactive
      exact hactive.elim
  | @goesOn new _ htrace htraced =>
      cases hmoves with
      | @acts k' r hk' hadv hcalls hcamera =>
          have hkk : k' = k := by
            by_contra hne
            exact (howned.active hactive).2 k' hne hk'
          subst hkk
          have hself : s'.calls k' = r.1 := by
            rw [hcalls, Function.update_self]
          obtain ⟨obs, hobs, hnext⟩ := hadv.trace
          have hnew := hnext new htraced
          have htrace' : s'.camera.trace = trace ++ (new ++ obs) := by
            rw [hcamera, hobs, htrace, List.append_assoc]
          rcases hnew.cases with hgoes | ⟨ret, hret⟩
          · refine .goesOn (by rwa [hself]) htrace' ?_
            rw [hself, hcamera, hadv.blocks]
            exact hnew
          · refine .returned (hself.trans hret) fun hne => ?_
            rw [hret] at hnew
            obtain ⟨event, hback⟩ := hnew hne
            rw [hcamera] at htrace' ⊢
            exact ⟨hadv.failed ret hret hne, new ++ obs, htrace',
              hback ▸ rolledBackObs_undone _ event⟩
      | starts _ hnone => exact absurd hactive (hnone k)
      | stops _ hnone => exact absurd hactive (hnone k)
      | @quiet k' st hold hnew hcalls hcamera =>
          have hne : k ≠ k' := by
            rintro rfl
            exact hold hactive
          have hself : s'.calls k = s.calls k := by
            rw [hcalls, Function.update_of_ne hne]
          have htrace' : s'.camera.trace = trace ++ new := by
            rw [hcamera]
            exact htrace
          refine .goesOn (by rwa [hself]) htrace' ?_
          rw [hself, hcamera]
          exact htraced
      | objects hcalls hstate hblocks htrace' hkeep =>
          refine .goesOn (by rwa [hcalls]) (htrace'.trans htrace) ?_
          rw [hcalls, hblocks]
          exact htraced

/-- The section of a start under the mutex begins an attempt. -/
theorem Attempt.begin (hP : 0 < P.uintMax) (howned : s.Owned P)
    (hstopped : s.camera.state = .stopped) {env : CreateEnv}
    (hnext : (startSection P env s.camera (s.calls k)).map (s.after k) = some u) :
    Attempt s.camera.trace k u := by
  obtain ⟨r, hr, hcalls, hcamera⟩ := after_eq hnext
  have hself : u.calls k = r.1 := by
    rw [hcalls, Function.update_self]
  have hidle := howned.idle hstopped
  cases hk : s.calls k with
  | entered request =>
      cases request with
      | stop => simp [startSection, hk] at hr
      | start config =>
          simp only [startSection, hk] at hr
          have hstarts := cameraRealStart_starts hP hidle config env
          generalize cameraRealStart P config env s.camera = result at hr hstarts
          obtain ⟨outcome, left⟩ := result
          cases hstarts with
          | failed hret hleft hobs htrace =>
              obtain rfl := Option.some.inj hr
              refine .returned hself fun _ => ?_
              rw [hcamera]
              exact ⟨hleft, _, htrace, hobs.undone⟩
          | created hup htrace =>
              obtain rfl := Option.some.inj hr
              have htrace' : u.camera.trace = s.camera.trace ++ createdObs u.camera.blocks := by
                rw [hcamera]
                exact htrace
              refine .goesOn (by rw [hself]; trivial) htrace' ?_
              rw [hself]
              rfl
  | _ => simp [startSection, hk] at hr

end Attempt

/-! ## The start is over -/

theorem sysErrorFromErrno_ne_state (n : Int) : sysErrorFromErrno n ≠ .state := by
  unfold sysErrorFromErrno
  repeat' apply ite_ne
  all_goals decide

theorem CreateFailure.error_ne_state (failure : CreateFailure) : failure.error ≠ .state := by
  cases failure <;> decide

theorem sysBufferPoolCreate_ne_state {n blockCapacity : Nat} {outPool : Bool}
    {environment : SysErr} (h : environment ≠ .state) :
    (sysBufferPoolCreate P n blockCapacity outPool environment).1 ≠ .state := by
  unfold sysBufferPoolCreate
  split
  · exact SysErr.noConfusion
  · split
    · exact SysErr.noConfusion
    · split
      · exact h
      · exact SysErr.noConfusion

theorem sysChannelCreate_ne_state {n capacity : Nat} {outChannel : Bool} {environment : SysErr}
    (h : environment ≠ .state) :
    (sysChannelCreate (n := n) P capacity outChannel environment).1 ≠ .state := by
  unfold sysChannelCreate sysChannelCreateWithConfig
  split
  · exact SysErr.noConfusion
  · dsimp only
    split
    · exact SysErr.noConfusion
    · split
      · exact h
      · exact SysErr.noConfusion

theorem sysThreadCreate_ne_state (memory : Bool) (ret : Int) :
    sysThreadCreate memory ret ≠ .state := by
  unfold sysThreadCreate
  exact ite_ne (by decide) (ite_ne (sysErrorFromErrno_ne_state ret) (by decide))

/-- `SYS_ERR_STATE` only comes from the check of the state and of the pool. -/
theorem createStreamResources_ne_state (config : CameraStreamConfig) (frameCapacity : Nat)
    (env : CreateEnv) (g : Globals C) :
    (createStreamResources P config frameCapacity env g).1 ≠ .state := by
  unfold createStreamResources
  dsimp only
  split
  · exact sysBufferPoolCreate_ne_state env.pool.error_ne_state
  · unfold createChannel
    dsimp only
    split
    · exact sysChannelCreate_ne_state env.channel.error_ne_state
    · unfold createThread
      dsimp only
      split
      · exact sysThreadCreate_ne_state _ _
      · exact SysErr.noConfusion

/-- An idle camera does not refuse a valid start for its state. -/
theorem Globals.Idle.start_ne_state {g : Globals C} (h : g.Idle)
    (config : Option CameraStreamConfig) (env : CreateEnv) :
    (cameraRealStart P config env g).1 ≠ .leave .state := by
  rcases cameraRealStart_cases (P := P) config env g with heq | ⟨config', frameCapacity, -, -, heq⟩
  · rw [heq]
    exact fun h => by cases h
  · have hfree : ¬ (g.state ≠ .stopped ∨ g.stream.pool.isSome = true) := by
      simp [h.state, h.gone.pool]
    have hne := createStreamResources_ne_state (P := P) config' frameCapacity env
      { g with state := .starting }
    rw [heq, startLocked, if_neg hfree]
    dsimp only
    split
    · exact fun h => hne (Outcome.leave.inj h)
    · exact fun h => by cases h

/-- Nothing is left of a start: not in the camera, not with a consumer, and nothing that was
    done was not undone.  From here on a start that finds the camera `STOPPED` is not refused
    with `SYS_ERR_STATE`. -/
structure LeavesNothing [DecidableEq T] [DecidableEq C] (P : Platform) (s t : System T C) :
    Prop where
  state : t.camera.state = .stopped
  thread : t.camera.stream.thread = none
  pool : t.camera.stream.pool = none
  attached : t.camera.stream.attached = false
  channel : t.camera.stream.channel = none
  streaming : t.camera.streaming = false
  consumers : ∀ c, t.camera.stream.Free c
  undone : ∃ done, t.camera.trace = s.camera.trace ++ done ∧ Undone done
  later : ∀ es v, (cameraMachine T C P).Run t es v → v.camera.state = .stopped →
    ∀ config env, (cameraRealStart P config env v.camera).1 ≠ .leave .state

section Claim

variable [DecidableEq T] [DecidableEq C] {s t u : System T C} {k : Caller T}

/-- A run of one call past its section under the mutex carries its start on. -/
theorem Attempt.run (hP : 0 < P.uintMax) {trace : List Obs} {es : List (Event T C)}
    (hrun : (callMachine T C P k).Run u es t) (hreach : (cameraMachine T C P).Reachable u)
    (h : Attempt trace k u) : (cameraMachine T C P).Reachable t ∧ Attempt trace k t := by
  refine hrun.invariant (I := fun v => (cameraMachine T C P).Reachable v ∧ Attempt trace k v)
    ?_ ⟨hreach, h⟩
  rintro v e w ⟨hv, hattempt⟩ ⟨hnext, hcontract, hactive⟩
  have hstep : (cameraMachine T C P).step v e w := ⟨hnext, hcontract⟩
  have howned := owned_of_reachable hP hv
  exact ⟨hv.step hstep, hattempt.step howned hactive (step_moves hP howned hstep)⟩

/-- A stream start that fails leaves nothing behind.  The call `k` enters its section under the
    mutex in `s`, where the camera is `STOPPED`, and returns an error in `t`. -/
theorem failedStart_leavesNothing (hP : 0 < P.uintMax) {env : CreateEnv} {ret : SysErr}
    {es : List (Event T C)} (hs : (cameraMachine T C P).Reachable s)
    (hstopped : s.camera.state = .stopped)
    (hstart : (cameraMachine T C P).step s (.start k env) u)
    (hrun : (callMachine T C P k).Run u es t) (hreturned : t.calls k = .returned ret)
    (hret : ret ≠ .ok) : LeavesNothing P s t := by
  have hbegin := Attempt.begin hP (owned_of_reachable hP hs) hstopped hstart.1
  obtain ⟨ht, hattempt⟩ := Attempt.run hP hrun (hs.step hstart) hbegin
  cases hattempt with
  | goesOn hactive =>
      rw [hreturned] at hactive
      exact hactive.elim
  | @returned ret' hret' hdone =>
      have hsame : ret' = ret := CallState.returned.inj (hret'.symm.trans hreturned)
      obtain ⟨hidle, hundone⟩ := hdone (by rwa [hsame])
      exact {
        state := hidle.state
        thread := hidle.gone.thread
        pool := hidle.gone.pool
        attached := hidle.gone.attached
        channel := hidle.gone.channel
        streaming := hidle.streaming
        consumers := hidle.gone.free
        undone := hundone
        later := fun es v hlater hv config env' => by
          have hidle' := (owned_of_reachable hP (ht.run hlater)).idle hv
          exact hidle'.start_ne_state config env' }

end Claim

instance (st : CallState C) : Decidable st.Active :=
  match st with
  | .created _ | .starting _ _ _ | .teardown _ _ _ => isTrue trivial
  | .idle | .entered _ | .returned _ => isFalse id

/-- The rest of a start that the second subscriber of the started event rejects, after the first
    one has attached to the channel. -/
def rejectedStart : List (Event Unit (Fin 2)) :=
  [.publish (.thread ()) (some [0, 1]), .consumer 0 .retain, .callbackReturned (.thread ()) .ok,
    .callbackReturned (.thread ()) .generic,
    -- a frame is produced, sent and received
    .producer 7, .producer 7, .producer 7, .producer 7, .producer 7, .producer 7,
    .consumer 0 (.receive 0 0),
    -- the rollback as far as the join, which waits for the producer
    .proceed (.thread ()), .proceed (.thread ()), .proceed (.thread ()), .proceed (.thread ()),
    .proceed (.thread ()), .producer 8, .proceed (.thread ()),
    -- the consumer drops what it has in its callback of the stopping event
    .publish (.thread ()) (some [0]), .consumer 0 (.bufferRelease 0), .consumer 0 .release,
    .callbackReturned (.thread ()) .ok, .proceed (.thread ()), .proceed (.thread ()),
    .proceed (.thread ()), .proceed (.thread ()), .proceed (.thread ())]

/-- A thread is about to start a stream of two frames of 5 by 5. -/
def aboutToStart : System Unit (Fin 2) :=
  System.setCall { System.initial Unit (Fin 2) with
      slot := { used := true, accepting := true, referenceCount := 1 } }
    (.thread ()) (.entered (.start (some { fps := 30, width := 5, height := 5, bufferCount := 2 })))

theorem failedStart_leavesNothing_rejected :
    ∃ t, t.calls (.thread ()) = .returned .generic ∧ LeavesNothing .lp64 aboutToStart t := by
  have hacquire : (cameraMachine Unit (Fin 2) .lp64).step (System.initial Unit (Fin 2))
      (.acquire () (.start (some { fps := 30, width := 5, height := 5, bufferCount := 2 })))
      aboutToStart := ⟨rfl, trivial⟩
  have hreach : (cameraMachine Unit (Fin 2) .lp64).Reachable aboutToStart :=
    ⟨_, _, System.initial_fresh, Machine.Run.single hacquire⟩
  obtain ⟨t, hexec, hreturned⟩ := Option.map_eq_some_iff.mp (show
    (((next .lp64 aboutToStart (.start (.thread ()) {})).bind fun u =>
      Machine.execIf (next .lp64) (fun s e => Contract s e ∧ (s.calls (.thread ())).Active) u
        rejectedStart).map fun t => t.calls (.thread ())) = some (.returned .generic) by decide)
  obtain ⟨u, hstart, hrest⟩ := Option.bind_eq_some_iff.mp hexec
  have hrun : (callMachine Unit (Fin 2) .lp64 (.thread ())).Run u rejectedStart t :=
    Machine.Run.of_execIf hrest
  exact ⟨t, hreturned, failedStart_leavesNothing (by decide) hreach rfl ⟨hstart, trivial⟩ hrun
    hreturned (by decide)⟩

end Camera
end AppCore
