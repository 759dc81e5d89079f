/-
  AppCore.Camera.Bystander

  What a step of the camera leaves to a consumer that takes no part in it: its references,
  the call that is running its callback, and the number of the stream it has references of.
-/

import AppCore.Camera.Sequence

namespace AppCore
namespace Camera

open Channel

variable {T C : Type*} {n : Nat} {P : Platform}

/-- The references a consumer has of the buffer with an index. -/
def heldAt (s : Stream C n) (c : C) (buffer : Nat) : Nat :=
  if h : buffer < n then s.held c ⟨buffer, h⟩ else 0

theorem heldAt_of_lt {s : Stream C n} {c : C} {buffer : Nat} (h : buffer < n) :
    heldAt s c buffer = s.held c ⟨buffer, h⟩ := dif_pos h

theorem heldAt_val (s : Stream C n) (c : C) (b : Fin n) : heldAt s c b.val = s.held c b :=
  heldAt_of_lt b.isLt

theorem heldAt_free {s : Stream C n} {c : C} (h : s.Free c) (buffer : Nat) :
    heldAt s c buffer = 0 := by
  unfold heldAt
  split
  · exact h.2 _
  · rfl

theorem heldAt_congr {s s' : Stream C n} {c : C} (h : s'.held c = s.held c) (buffer : Nat) :
    heldAt s' c buffer = heldAt s c buffer := by
  simp only [heldAt, h]

/-- A consumer has the same references as before, of a stream with the same number. -/
structure Unmoved (g g' : Globals C) (c : C) : Prop where
  refs : g'.stream.refs c = g.stream.refs c
  held : ∀ buffer, heldAt g'.stream c buffer = heldAt g.stream c buffer
  generation : 0 < g.stream.refs c → g'.frames.generation = g.frames.generation

section Sections

variable {g g' : Globals C} {c : C}

theorem Unmoved.same : Unmoved g g c := ⟨rfl, fun _ => rfl, fun _ => rfl⟩

/-- Nobody but the consumers themselves has changed what references they have. -/
theorem Unmoved.stream {stream : Stream C g.blocks} {state : CameraState} {streaming : Bool}
    {frames : Frames} {trace : List Obs} (hrefs : stream.refs c = g.stream.refs c)
    (hheld : stream.held c = g.stream.held c)
    (hgeneration : frames.generation = g.frames.generation) :
    Unmoved g ⟨state, streaming, g.config, frames, g.blocks, stream, trace⟩ c :=
  ⟨hrefs, heldAt_congr hheld, fun _ => hgeneration⟩

theorem Unmoved.of_free (h : g.stream.Free c) (h' : g'.stream.Free c) : Unmoved g g' c := by
  refine ⟨?_, fun buffer => ?_, fun hpos => ?_⟩
  · rw [h'.1, h.1]
  · rw [heldAt_free h', heldAt_free h]
  · rw [h.1] at hpos
    exact absurd hpos (Nat.lt_irrefl 0)

theorem Unmoved.closeChannel : Unmoved g g.closeChannel c := by
  unfold Globals.closeChannel
  split
  · exact Unmoved.same
  · exact Unmoved.stream rfl rfl rfl

theorem Unmoved.releaseChannel : Unmoved g (g.releaseChannel P) c := by
  unfold Globals.releaseChannel
  split
  · exact Unmoved.same
  · split
    · exact Unmoved.same
    · dsimp only
      split <;> exact Unmoved.stream rfl rfl rfl

theorem Unmoved.destroyPool : Unmoved g g.destroyPool.2 c := by
  unfold Globals.destroyPool
  split
  · exact Unmoved.same
  · split
    · exact Unmoved.same
    · exact Unmoved.stream rfl rfl rfl

theorem teardownSection_unmoved {t : Teardown} {event : CameraStreamEvent} {stage : Stage C}
    {x : CallState C × Globals C} (hx : teardownSection P t event g stage = some x) :
    Unmoved g x.2 c := by
  cases stage with
  | join =>
      simp only [teardownSection] at hx
      split at hx
      · obtain rfl := Option.some.inj hx
        exact Unmoved.same
      · split at hx
        · obtain rfl := Option.some.inj hx
          exact Unmoved.stream rfl rfl rfl
        · cases hx
  | joinFailed ret =>
      simp only [teardownSection] at hx
      split at hx
      · obtain rfl := Option.some.inj hx
        exact Unmoved.same
      · obtain rfl := Option.some.inj hx
        exact Unmoved.stream rfl rfl rfl
  | publish => cases hx
  | notify pending firstError =>
      cases pending with
      | nil =>
          obtain rfl := Option.some.inj hx
          exact Unmoved.same
      | cons c rest => cases hx
  | wait eventRet =>
      have hsame : x.2 = g := by
        simp only [teardownSection] at hx
        split at hx
        · obtain rfl := Option.some.inj hx
          rfl
        · split at hx
          · obtain rfl := Option.some.inj hx
            rfl
          · obtain rfl := Option.some.inj hx
            rfl
          · obtain rfl := Option.some.inj hx
            rfl
      rw [hsame]
      exact Unmoved.same
  | waiting eventRet => cases hx
  | close =>
      obtain rfl := Option.some.inj hx
      exact Unmoved.closeChannel
  | release eventRet =>
      obtain rfl := Option.some.inj hx
      exact Unmoved.releaseChannel
  | destroy eventRet =>
      obtain rfl := Option.some.inj hx
      exact Unmoved.destroyPool
  | _ =>
      obtain rfl := Option.some.inj hx
      exact Unmoved.stream rfl rfl rfl

theorem proceed_unmoved {st : CallState C} {x : CallState C × Globals C}
    (hx : proceed P g st = some x) : Unmoved g x.2 c := by
  cases st with
  | starting event pending firstError =>
      cases pending with
      | nil =>
          simp only [proceed] at hx
          split at hx
          · obtain rfl := Option.some.inj hx
            exact Unmoved.same
          · obtain rfl := Option.some.inj hx
            exact Unmoved.stream rfl rfl rfl
      | cons c rest => cases hx
  | teardown t event stage => exact teardownSection_unmoved hx
  | _ => cases hx

theorem publish_unmoved {subscribers : Option (List C)} {st : CallState C}
    {x : CallState C × Globals C} (hx : publish subscribers g st = some x) :
    Unmoved g x.2 c := by
  cases st with
  | created event =>
      obtain rfl := Option.some.inj hx
      exact Unmoved.stream rfl rfl rfl
  | teardown t event stage =>
      cases stage with
      | publish =>
          obtain rfl := Option.some.inj hx
          exact Unmoved.stream rfl rfl rfl
      | _ => cases hx
  | _ => cases hx

theorem wake_unmoved {ret : Int} {st : CallState C} {x : CallState C × Globals C}
    (hx : wake ret g st = some x) : Unmoved g x.2 c := by
  cases st with
  | teardown t event stage =>
      cases stage with
      | waiting eventRet =>
          have hsame : x.2 = g := by
            simp only [wake] at hx
            split at hx
            · obtain rfl := Option.some.inj hx
              rfl
            · obtain rfl := Option.some.inj hx
              rfl
            · obtain rfl := Option.some.inj hx
              rfl
          rw [hsame]
          exact Unmoved.same
      | _ => cases hx
  | _ => cases hx

theorem cameraRealStop_unmoved : Unmoved g (cameraRealStop g).2 c := by
  unfold cameraRealStop
  split
  · exact Unmoved.same
  · split
    · exact Unmoved.same
    · exact Unmoved.stream rfl rfl rfl

theorem stopSection_unmoved {st : CallState C} {x : CallState C × Globals C}
    (hx : stopSection g st = some x) : Unmoved g x.2 c := by
  cases st with
  | entered request =>
      cases request with
      | start config => cases hx
      | stop =>
          have hleft : x.2 = (cameraRealStop g).2 := by
            simp only [stopSection] at hx
            split at hx
            · rename_i heq
              obtain rfl := Option.some.inj hx
              rw [heq]
            · rename_i heq
              obtain rfl := Option.some.inj hx
              rw [heq]
          rw [hleft]
          exact cameraRealStop_unmoved
  | _ => cases hx

/-- The producer keeps the number of its stream. -/
theorem cameraProducer_generation {timestamp : UInt64} {s : Stream C n} {f : Frames}
    {x : Stream C n × Frames} (hx : cameraProducer P timestamp s f = some x) :
    x.2.generation = f.generation := by
  have hsent : ∀ (s : Stream C n) b ret, (s.sendReturned f b ret).2.generation = f.generation := by
    intro s b ret
    unfold Stream.sendReturned
    dsimp only
    split <;> rfl
  have hfill : ∀ pool b, (s.fill f pool b timestamp).2.generation = f.generation := by
    intro pool b
    unfold Stream.fill
    dsimp only
    split
    · rfl
    · split <;> rfl
  cases hp : s.thread with
  | none =>
      rw [cameraProducer, hp] at hx
      cases hx
  | some p =>
      simp only [cameraProducer, hp] at hx
      cases hloop : p.loop with
      | condition =>
          simp only [producerSection, hloop] at hx
          obtain rfl := Option.some.inj hx
          rfl
      | acquire =>
          simp only [producerSection, hloop] at hx
          split at hx
          · obtain rfl := Option.some.inj hx
            rfl
          · split at hx
            · obtain rfl := Option.some.inj hx
              rfl
            · obtain rfl := Option.some.inj hx
              exact hfill _ _
      | send b =>
          simp only [producerSection, hloop] at hx
          split at hx
          · obtain rfl := Option.some.inj hx
            exact hsent _ _ _
          · split at hx
            · cases hx
            · split at hx
              · obtain rfl := Option.some.inj hx
                rfl
              · obtain rfl := Option.some.inj hx
                exact hsent _ _ _
      | locked b =>
          simp only [producerSection, hloop] at hx
          split at hx
          · cases hx
          · split at hx
            · obtain rfl := Option.some.inj hx
              rfl
            · cases hx
      | unwind b ret releases =>
          cases releases with
          | nil =>
              simp only [producerSection, hloop] at hx
              obtain rfl := Option.some.inj hx
              exact hsent _ _ _
          | cons y rest =>
              simp only [producerSection, hloop] at hx
              obtain rfl := Option.some.inj hx
              rfl
      | release b leaves =>
          simp only [producerSection, hloop] at hx
          obtain rfl := Option.some.inj hx
          rfl
      | exited =>
          simp only [producerSection, hloop] at hx
          cases hx

/-- A start that finds the camera idle gives no consumer a reference. -/
theorem cameraRealStart_unmoved (hP : 0 < P.uintMax) (hidle : g.Idle)
    (config : Option CameraStreamConfig) (env : CreateEnv) :
    Unmoved g (cameraRealStart P config env g).2 c := by
  rcases cameraRealStart_cases (P := P) config env g with heq |
    ⟨config', frameCapacity, rfl, -, heq⟩
  · rw [heq]
    exact Unmoved.same
  · have hstarts : Starts P g.trace (startLocked P config' frameCapacity env g) :=
      startLocked_starts hP hidle frameCapacity
    have hbegins := createStreamResources_begins (P := P) config' frameCapacity env
      { g with state := .starting }
    have hfree : ¬ (g.state ≠ .stopped ∨ g.stream.pool.isSome = true) := by
      simp [hidle.state, hidle.gone.pool]
    rw [heq]
    refine Unmoved.of_free (hidle.gone.free c) ?_
    unfold startLocked at hstarts ⊢
    rw [if_neg hfree] at hstarts ⊢
    generalize createStreamResources P config' frameCapacity env { g with state := .starting } = x
      at hstarts hbegins ⊢
    cases hbegins with
    | @failed ret left hret hframes =>
        dsimp only at hstarts ⊢
        rw [if_pos hret] at hstarts ⊢
        cases hstarts with
        | failed _ hleft => exact hleft.gone.free c
    | created _ _ _ _ _ _ _ _ hrefs hheld =>
        dsimp only
        rw [if_neg (not_not_intro rfl)]
        exact ⟨congrFun hrefs c, fun b => congrFun (congrFun hheld c) b⟩

end Sections

/-! ## What a consumer does itself -/

section Consume

variable [DecidableEq C] {s s' : Stream C n} {c : C} {ch : SysChannel n}

theorem consume_retain (hch : s.channel = some ch)
    (hloop : channelRetainLoop P ch.referenceCount = none)
    (hs : consume P c s .retain = some s') : s'.refs c = s.refs c + 1 ∧ s'.held = s.held := by
  simp only [consume, hch, Option.map_some, hloop] at hs
  obtain rfl := Option.some.inj hs
  exact ⟨Function.update_self .., rfl⟩

theorem consume_release (hs : consume P c s .release = some s') :
    s'.refs c = s.refs c - 1 ∧ s'.held = s.held := by
  obtain ⟨ch, -, rfl⟩ := Option.map_eq_some_iff.mp hs
  exact ⟨Function.update_self .., rfl⟩

/-- The buffer that a receive hands out. -/
def receivedBuffer : ReceiveOutcome n → Option (Fin n)
  | .wait => none
  | .leave _ out => out

theorem heldAt_setHeld (b : Fin n) (count buffer : Nat) :
    heldAt (s.setHeld c b count) c buffer =
      if b.val = buffer then count else heldAt s c buffer := by
  unfold heldAt Stream.setHeld
  by_cases hb : buffer < n
  · rw [dif_pos hb, dif_pos hb]
    dsimp only
    rw [Function.update_self, Function.update_apply]
    by_cases heq : b.val = buffer
    · rw [if_pos heq, if_pos (Fin.ext heq.symm)]
    · rw [if_neg heq, if_neg fun h => heq (congrArg Fin.val h).symm]
  · have hne : b.val ≠ buffer := by
      rintro rfl
      exact hb b.isLt
    rw [dif_neg hb, dif_neg hb, if_neg hne]

theorem consume_receive {timeoutMs ret : Int} (hch : s.channel = some ch)
    (hs : consume P c s (.receive timeoutMs ret) = some s') :
    s'.refs = s.refs ∧ ∀ buffer, heldAt s' c buffer = heldAt s c buffer +
      if (receivedBuffer (receiveWake P timeoutMs ret ch).2.1).map Fin.val = some buffer
        then 1 else 0 := by
  simp only [consume, hch, Option.map_some] at hs
  generalize receiveWake P timeoutMs ret ch = r at hs
  obtain ⟨ch', outcome, obs⟩ := r
  cases outcome with
  | wait =>
      obtain rfl := Option.some.inj hs
      exact ⟨rfl, fun buffer => rfl⟩
  | leave r out =>
      cases out with
      | none =>
          obtain rfl := Option.some.inj hs
          exact ⟨rfl, fun buffer => rfl⟩
      | some b =>
          obtain rfl := Option.some.inj hs
          refine ⟨rfl, fun buffer => ?_⟩
          refine (heldAt_setHeld (s := { s with channel := some ch' }) b _ buffer).trans ?_
          by_cases heq : b.val = buffer
          · subst heq
            rw [if_pos rfl, heldAt_val]
            exact congrArg _ (if_pos rfl).symm
          · have hne : ¬ (Option.map Fin.val (some b) = some buffer) :=
              fun h => heq (Option.some.inj h)
            have hnone : (if Option.map Fin.val (some b) = some buffer then 1 else 0) = 0 :=
              if_neg hne
            rw [if_neg heq]
            exact (congrArg (heldAt s c buffer + ·) hnone).symm

theorem consume_bufferRelease {buffer : Nat} (hs : consume P c s (.bufferRelease buffer) = some s')
    (hpos : 0 < heldAt s c buffer) :
    s'.refs = s.refs ∧ ∀ i, heldAt s' c i + (if buffer = i then 1 else 0) = heldAt s c i := by
  simp only [consume] at hs
  split at hs
  · rename_i hb
    obtain ⟨pool, -, rfl⟩ := Option.map_eq_some_iff.mp hs
    refine ⟨rfl, fun i => ?_⟩
    rw [heldAt_of_lt hb] at hpos
    have hat : heldAt (Stream.setHeld
        { s with pool := some (sysBufferRelease P (some ⟨buffer, hb⟩) pool) } c ⟨buffer, hb⟩
          (s.held c ⟨buffer, hb⟩ - 1)) c i =
        if buffer = i then s.held c ⟨buffer, hb⟩ - 1 else heldAt s c i :=
      heldAt_setHeld (s := { s with pool := _ }) _ _ i
    rw [hat]
    by_cases heq : buffer = i
    · subst heq
      rw [if_pos rfl, if_pos rfl, heldAt_of_lt hb]
      omega
    · rw [if_neg heq, if_neg heq]
      rfl
  · cases hs

end Consume

/-! ## Whole steps -/

section Steps

variable {s s' : System T C} {c : C} {e : Event T C}

/-- A step that the consumer does itself, or that ends its callback. -/
def TakesPart (s : System T C) (c : C) : Event T C → Prop
  | .consumer c' _ => c' = c
  | .callbackReturned k _ => (s.calls k).callback = some c
  | _ => False

/-- What a step leaves to a consumer that takes no part in it. -/
structure Bystander (s s' : System T C) (c : C) : Prop where
  unmoved : Unmoved s.camera s'.camera c
  calls : ∀ k, (s.calls k).callback = some c → s'.calls k = s.calls k

theorem start_unmoved (hP : 0 < P.uintMax) (hown : s.Owned P) {k : Caller T} {env : CreateEnv}
    {x : CallState C × Globals C} (hx : startSection P env s.camera (s.calls k) = some x) :
    Unmoved s.camera x.2 c := by
  cases hk : s.calls k with
  | entered request =>
      cases request with
      | stop => simp [startSection, hk] at hx
      | start config =>
          simp only [startSection, hk] at hx
          have hleft : x.2 = (cameraRealStart P config env s.camera).2 := by
            split at hx
            · rename_i heq
              obtain rfl := Option.some.inj hx
              rw [heq]
            · rename_i heq
              obtain rfl := Option.some.inj hx
              rw [heq]
          rw [hleft]
          have hrefused : s.camera.state ≠ .stopped →
              Unmoved s.camera (cameraRealStart P config env s.camera).2 c := by
            intro hstate
            obtain ⟨ret, -, heq⟩ := cameraRealStart_refuses (P := P) hstate config env
            rw [heq]
            exact Unmoved.same
          rcases hown.cases with ⟨hidle | hup, -⟩ | ⟨k₀, hk₀⟩
          · exact cameraRealStart_unmoved hP hidle config env
          · apply hrefused
            simp [hup.state]
          · apply hrefused
            rcases (hown.active hk₀).1.busy hk₀ with hstate | hstate
            · simp [hstate]
            · simp [hstate]
  | _ => simp [startSection, hk] at hx

variable [DecidableEq T]

/-- A section of a call that is not running the callback of the consumer. -/
theorem Bystander.after {k : Caller T} {x : CallState C × Globals C}
    (hunmoved : Unmoved s.camera x.2 c) (hk : (s.calls k).callback ≠ some c) :
    Bystander s (s.after k x) c := by
  refine ⟨hunmoved, fun k' hk' => ?_⟩
  have hne : k' ≠ k := by
    rintro rfl
    exact hk hk'
  exact Function.update_of_ne hne ..

/-- A call that does not touch the camera moves. -/
theorem Bystander.setCall {k : Caller T} {st : CallState C} {slot : Service.ServiceSlot}
    {shutdown : Shutdown} (hk : (s.calls k).callback ≠ some c) :
    Bystander s (System.setCall { s with slot := slot, shutdown := shutdown } k st) c := by
  refine ⟨Unmoved.same, fun k' hk' => ?_⟩
  have hne : k' ≠ k := by
    rintro rfl
    exact hk hk'
  exact Function.update_of_ne hne ..

variable [DecidableEq C]

theorem step_bystander (hP : 0 < P.uintMax) (hown : s.Owned P)
    (hstep : (cameraMachine T C P).step s e s') (hother : ¬ TakesPart s c e) :
    Bystander s s' c := by
  obtain ⟨hnext, hcontract⟩ := hstep
  have hsame : ∀ {s' : System T C}, s'.camera = s.camera → s'.calls = s.calls →
      Bystander s s' c := by
    intro s' hcamera hcalls
    refine ⟨?_, fun k _ => by rw [hcalls]⟩
    rw [hcamera]
    exact Unmoved.same
  have hquiet : ∀ {k}, (s.calls k).callback = none → (s.calls k).callback ≠ some c := by
    intro k hnone
    rw [hnone]
    exact fun heq => by cases heq
  cases next_cases hnext with
  | acquired hidle hslot => exact Bystander.setCall (hquiet (by rw [hidle]; rfl))
  | refused hidle => exact hsame rfl rfl
  | @start k env x hx =>
      refine Bystander.after (start_unmoved hP hown hx) (hquiet ?_)
      generalize s.calls k = st at hx
      cases st with
      | entered request => rfl
      | _ => cases hx
  | @stop k x hx =>
      refine Bystander.after (stopSection_unmoved hx) (hquiet ?_)
      generalize s.calls k = st at hx
      cases st with
      | entered request => rfl
      | _ => cases hx
  | @publish k subscribers x hx =>
      refine Bystander.after (publish_unmoved hx) (hquiet ?_)
      generalize s.calls k = st at hx
      cases st with
      | created event => rfl
      | teardown t event stage =>
          cases stage with
          | publish => rfl
          | _ => cases hx
      | _ => cases hx
  | callbackReturned hst => exact Bystander.setCall hother
  | @proceed k x hx =>
      refine Bystander.after (proceed_unmoved hx) (hquiet ?_)
      generalize s.calls k = st at hx
      cases st with
      | starting event pending firstError =>
          cases pending with
          | nil => rfl
          | cons c rest => cases hx
      | teardown t event stage =>
          cases stage with
          | notify pending firstError =>
              cases pending with
              | nil => rfl
              | cons c rest => cases hx
          | _ => rfl
      | _ => cases hx
  | @wake k ret x hx =>
      refine Bystander.after (wake_unmoved hx) (hquiet ?_)
      generalize s.calls k = st at hx
      cases st with
      | teardown t event stage =>
          cases stage with
          | waiting eventRet => rfl
          | _ => cases hx
      | _ => cases hx
  | release hk => exact Bystander.setCall (hquiet (by rw [hk]; rfl))
  | componentStop hrunning hk => exact Bystander.setCall (hquiet (by rw [hk]; rfl))
  | componentStopped hstopping hk => exact Bystander.setCall (hquiet (by rw [hk]; rfl))
  | deinit hstopped => exact hsame rfl rfl
  | unregisterWake hwaiting => exact hsame rfl rfl
  | @producer timestamp x hx =>
      have hlive := hown.live_of_producer hx
      have hprod := cameraProducer_step hlive hx
      exact ⟨Unmoved.stream (congrFun hprod.refs c) (congrFun hprod.held c)
        (cameraProducer_generation hx), fun k _ => rfl⟩
  | @consumer c' action stream hx =>
      have hne : c ≠ c' := by
        rintro rfl
        exact hother rfl
      obtain ⟨k, -, hothers⟩ := id hown
      obtain ⟨-, howned⟩ := contract_consumer hothers hcontract
      have hcons := consume_step (hown.live_of_consumer howned hx) howned hx
      exact ⟨Unmoved.stream (hcons.refs c hne) (hcons.held c hne) rfl, fun k _ => rfl⟩

end Steps

/-! ## The event of a stream that is starting -/

/-- The event that a start publishes. -/
def CallState.startEvent : CallState C → Option CameraStreamEvent
  | .created event => some event
  | .starting event _ _ => some event
  | _ => none

/-- A start publishes what the camera is. -/
def System.Announced (s : System T C) : Prop :=
  ∀ k event, (s.calls k).startEvent = some event → event = s.camera.event

section Announced

variable {s s' : System T C} {k : Caller T} {e : Event T C}

theorem CallState.active_of_startEvent {st : CallState C} {event : CameraStreamEvent}
    (h : st.startEvent = some event) : st.Active := by
  cases st with
  | created event => trivial
  | starting event pending firstError => trivial
  | _ => cases h

theorem System.Fresh.announced (h : s.Fresh) : s.Announced := by
  intro k event hevent
  rw [h.calls] at hevent
  cases hevent

/-- Of the calls the one of `k` has moved. -/
theorem System.Announced.moved {st : CallState C} [DecidableEq T] (h : s.Announced)
    (hcalls : s'.calls = Function.update s.calls k st)
    (hmoved : ∀ event, st.startEvent = some event → event = s'.camera.event)
    (hothers : s'.camera.event = s.camera.event ∨ ∀ k', k' ≠ k → ¬ (s.calls k').Active) :
    s'.Announced := by
  intro k' event hevent
  rw [hcalls] at hevent
  by_cases hk : k' = k
  · rw [hk, Function.update_self] at hevent
    exact hmoved event hevent
  · rw [Function.update_of_ne hk] at hevent
    rcases hothers with hsame | hnone
    · rw [hsame]
      exact h k' event hevent
    · exact absurd (CallState.active_of_startEvent hevent) (hnone k' hk)

theorem Stream.Live.attached {s : Stream C n} (h : s.Live P) : s.attached = true := by
  obtain ⟨pool, ch, hl⟩ := h
  exact hl.attached

theorem cameraRealStart_event {config : Option CameraStreamConfig} {env : CreateEnv}
    {g g' : Globals C} {event : CameraStreamEvent}
    (h : cameraRealStart P config env g = (.goOn event, g')) : event = g'.event := by
  rcases cameraRealStart_cases (P := P) config env g with heq | ⟨config', capacity, -, -, heq⟩
  · rw [heq] at h
    cases h
  · rw [heq, startLocked] at h
    split at h
    · cases h
    · dsimp only at h
      split at h
      · cases h
      · obtain ⟨hevent, rfl⟩ := Prod.mk.inj h
        exact (Outcome.goOn.inj hevent).symm

theorem start_event {env : CreateEnv} {g : Globals C} {st : CallState C}
    {x : CallState C × Globals C} {event : CameraStreamEvent}
    (hx : startSection P env g st = some x) (hevent : x.1.startEvent = some event) :
    event = x.2.event := by
  cases st with
  | entered request =>
      cases request with
      | stop => cases hx
      | start config =>
          simp only [startSection] at hx
          split at hx
          · obtain rfl := Option.some.inj hx
            cases hevent
          · rename_i heq
            obtain rfl := Option.some.inj hx
            obtain rfl := Option.some.inj hevent
            exact cameraRealStart_event heq
  | _ => cases hx

/-- The sections after the publication of the started event have no such event. -/
theorem proceed_startEvent {g : Globals C} {st : CallState C} {x : CallState C × Globals C}
    (hx : proceed P g st = some x) : x.1.startEvent = none := by
  cases st with
  | starting event pending firstError =>
      cases pending with
      | nil =>
          simp only [proceed] at hx
          split at hx
          · obtain rfl := Option.some.inj hx
            rfl
          · obtain rfl := Option.some.inj hx
            rfl
      | cons c rest => cases hx
  | teardown t event stage =>
      cases stage with
      | join =>
          simp only [proceed, teardownSection] at hx
          split at hx
          · obtain rfl := Option.some.inj hx
            rfl
          · split at hx
            · obtain rfl := Option.some.inj hx
              rfl
            · cases hx
      | joinFailed ret =>
          simp only [proceed, teardownSection] at hx
          split at hx
          · obtain rfl := Option.some.inj hx
            rfl
          · obtain rfl := Option.some.inj hx
            rfl
      | publish => cases hx
      | notify pending firstError =>
          cases pending with
          | nil =>
              obtain rfl := Option.some.inj hx
              rfl
          | cons c rest => cases hx
      | wait eventRet =>
          simp only [proceed, teardownSection] at hx
          split at hx
          · obtain rfl := Option.some.inj hx
            rfl
          · split at hx
            · obtain rfl := Option.some.inj hx
              rfl
            · obtain rfl := Option.some.inj hx
              rfl
            · obtain rfl := Option.some.inj hx
              rfl
      | waiting eventRet => cases hx
      | _ =>
          obtain rfl := Option.some.inj hx
          rfl
  | _ => cases hx

variable [DecidableEq T] [DecidableEq C]

theorem step_announced (hown : s.Owned P) (h : s.Announced)
    (hstep : (cameraMachine T C P).step s e s') : s'.Announced := by
  obtain ⟨hnext, hcontract⟩ := hstep
  -- a section of a call that is past the mutex, beside calls that are not
  have halone : ∀ {k}, (s.calls k).Active → ∀ k', k' ≠ k → ¬ (s.calls k').Active :=
    fun hk => (hown.active hk).2
  -- a call that is not past the mutex leaves the camera, or it finds nobody past it
  have hbusy : ∀ {k₀}, (s.calls k₀).Active →
      s.camera.state = .starting ∨ s.camera.state = .stopping :=
    fun hk => (hown.active hk).1.busy hk
  cases next_cases hnext with
  | acquired hidle hslot =>
      exact h.moved rfl (fun event hevent => by cases hevent) (Or.inl rfl)
  | refused hidle => exact h
  | @start k env x hx =>
      refine h.moved rfl (fun event hevent => start_event hx hevent) ?_
      by_cases hactive : ∃ k₀, (s.calls k₀).Active
      · obtain ⟨k₀, hk₀⟩ := hactive
        have hstate : s.camera.state ≠ .stopped := by
          rcases hbusy hk₀ with hstate | hstate
          · simp [hstate]
          · simp [hstate]
        refine Or.inl (congrArg Globals.event ?_)
        show x.2 = s.camera
        generalize s.calls k = st at hx
        cases st with
        | entered request =>
            cases request with
            | stop => cases hx
            | start config =>
                obtain ⟨ret, -, heq⟩ := cameraRealStart_refuses (P := P) hstate config env
                simp only [startSection, heq] at hx
                obtain rfl := Option.some.inj hx
                rfl
        | _ => cases hx
      · exact Or.inr fun k' _ hk' => hactive ⟨k', hk'⟩
  | @stop k x hx =>
      have hnone : x.1.startEvent = none := by
        generalize s.calls k = st at hx
        cases st with
        | entered request =>
            cases request with
            | start config => cases hx
            | stop =>
                simp only [stopSection] at hx
                split at hx
                · obtain rfl := Option.some.inj hx
                  rfl
                · obtain rfl := Option.some.inj hx
                  rfl
        | _ => cases hx
      refine h.moved rfl (fun event hevent => ?_) ?_
      · rw [hnone] at hevent
        cases hevent
      by_cases hactive : ∃ k₀, (s.calls k₀).Active
      · obtain ⟨k₀, hk₀⟩ := hactive
        refine Or.inl (congrArg Globals.event ?_)
        show x.2 = s.camera
        generalize s.calls k = st at hx
        cases st with
        | entered request =>
            cases request with
            | start config => cases hx
            | stop =>
                simp only [stopSection, cameraRealStop_refuses (hbusy hk₀)] at hx
                obtain rfl := Option.some.inj hx
                rfl
        | _ => cases hx
      · exact Or.inr fun k' _ hk' => hactive ⟨k', hk'⟩
  | @publish k subscribers x hx =>
      have hk := publish_active hx
      refine h.moved rfl (fun event hevent => ?_) (Or.inr (halone hk))
      have hold := h k
      generalize s.calls k = st at hx hold
      cases st with
      | created event' =>
          obtain rfl := Option.some.inj hx
          obtain rfl := Option.some.inj hevent
          exact hold event' rfl
      | teardown t event' stage =>
          cases stage with
          | publish =>
              obtain rfl := Option.some.inj hx
              cases hevent
          | _ => cases hx
      | _ => cases hx
  | @callbackReturned k ret st hst =>
      refine h.moved rfl (fun event hevent => ?_) (Or.inl rfl)
      have hold := h k
      generalize s.calls k = st' at hst hold
      cases st' with
      | starting event' pending firstError =>
          cases pending with
          | nil => cases hst
          | cons c rest =>
              obtain rfl := Option.some.inj hst
              obtain rfl := Option.some.inj hevent
              exact hold event' rfl
      | teardown t event' stage =>
          cases stage with
          | notify pending firstError =>
              cases pending with
              | nil => cases hst
              | cons c rest =>
                  obtain rfl := Option.some.inj hst
                  cases hevent
          | _ => cases hst
      | _ => cases hst
  | @proceed k x hx =>
      refine h.moved rfl (fun event hevent => ?_) (Or.inr (halone (proceed_active hx)))
      rw [proceed_startEvent hx] at hevent
      cases hevent
  | @wake k ret x hx =>
      have hk := wake_active hx
      have hholds := (hown.active hk).1
      generalize s.calls k = st at hx hholds
      cases st with
      | teardown t event stage =>
          cases stage with
          | waiting eventRet => exact hholds.elim
          | _ => cases hx
      | _ => cases hx
  | release hk => exact h.moved rfl (fun event hevent => by cases hevent) (Or.inl rfl)
  | componentStop hrunning hk =>
      exact h.moved rfl (fun event hevent => by cases hevent) (Or.inl rfl)
  | componentStopped hstopping hk =>
      exact h.moved rfl (fun event hevent => by cases hevent) (Or.inl rfl)
  | deinit hstopped => exact h
  | unregisterWake hwaiting => exact h
  | @producer timestamp x hx =>
      intro k event hevent
      have hlive := hown.live_of_producer hx
      have hstays : Globals.event { s.camera with stream := x.1, frames := x.2 } =
          s.camera.event := by
        unfold Globals.event
        dsimp only
        rw [cameraProducer_generation hx, (cameraProducer_step hlive hx).live.attached,
          hlive.attached]
      rw [hstays]
      exact h k event hevent
  | @consumer c action stream hx =>
      intro k event hevent
      obtain ⟨k₀, -, hothers⟩ := id hown
      obtain ⟨-, howned⟩ := contract_consumer hothers hcontract
      have hlive := hown.live_of_consumer howned hx
      have hstays : Globals.event { s.camera with stream := stream } = s.camera.event := by
        unfold Globals.event
        dsimp only
        rw [(consume_step hlive howned hx).live.attached, hlive.attached]
      rw [hstays]
      exact h k event hevent

theorem announced_of_reachable (hP : 0 < P.uintMax) (h : (cameraMachine T C P).Reachable s) :
    s.Announced := by
  have hboth := h.invariant (I := fun t => t.Owned P ∧ t.Announced)
    (fun _ (hfresh : System.Fresh _) => ⟨hfresh.owned, hfresh.announced⟩)
    fun _ _ _ hu hstep => ⟨(step_moves hP hu.1 hstep).owned hu.1, step_announced hu.1 hu.2 hstep⟩
  exact hboth.2

end Announced

end Camera
end AppCore
