/-
  AppCore.Camera.Calls

  What one step of the camera and its users can do, and the invariant: at most one call is
  starting a stream or taking one down, and between two of them the camera is idle or runs.
-/

import AppCore.Camera.Phases

namespace AppCore
namespace Camera

open Channel

variable {T C : Type*} {P : Platform}

section Objects

variable {g : Globals C} {st : CallState C}

/-- The camera between two calls, and at no point of one. -/
theorem CallState.holds_of_inactive (h : ¬ st.Active) : st.Holds P g ↔ g.Rest P := by
  cases st with
  | created event => exact absurd trivial h
  | starting event pending firstError => exact absurd trivial h
  | teardown t event stage => exact absurd trivial h
  | _ => exact Iff.rfl

theorem CallState.inactive_callback (h : ¬ st.Active) : st.callback = none := by
  cases st with
  | starting event pending firstError => exact absurd trivial h
  | teardown t event stage => exact absurd trivial h
  | _ => rfl

/-- A call that is past its section under the mutex has left the camera between two states. -/
theorem CallState.Holds.busy (h : st.Holds P g) (hst : st.Active) :
    g.state = .starting ∨ g.state = .stopping := by
  cases st with
  | created event => exact Or.inl h.state
  | starting event pending firstError => exact Or.inl h.state
  | teardown t event stage =>
      cases stage with
      | mark => exact Or.inl h.state
      | silence => exact Or.inr h.state
      | requestStop => exact Or.inr h.1.state
      | close => exact Or.inr h.1.state
      | join => exact Or.inr h.1.state
      | joinFailed ret => exact h.elim
      | publish => exact Or.inr h.state
      | notify pending firstError => exact Or.inr h.1.state
      | release eventRet => exact Or.inr h.1.state
      | wait eventRet => exact Or.inr h.1
      | waiting eventRet => exact h.elim
      | destroy eventRet => exact Or.inr h.1
      | settle eventRet poolRet => exact Or.inr h.1
  | _ => exact hst.elim

theorem Globals.Up.withStream {state : CameraState} (h : g.Up P state)
    {stream : Stream C g.blocks} {frames : Frames} (hthread : stream.thread.isSome = true)
    (hlive : stream.Live P) :
    Globals.Up P state { g with stream := stream, frames := frames } :=
  ⟨h.state, hthread, hlive⟩

/-- A section of the producer changes nothing a call relies on. -/
theorem CallState.Holds.producer {timestamp : UInt64} {r : Stream C g.blocks × Frames}
    (h : st.Holds P g) (hr : cameraProducer P timestamp g.stream g.frames = some r) :
    st.Holds P { g with stream := r.1, frames := r.2 } := by
  have hthread : g.stream.thread ≠ none := by
    intro hnone
    rw [cameraProducer, hnone] at hr
    cases hr
  have hup : ∀ {state}, g.Up P state →
      Globals.Up P state { g with stream := r.1, frames := r.2 } := by
    intro state hup
    have hstep := cameraProducer_step hup.live hr
    exact hup.withStream hstep.thread hstep.live
  have hrest : g.Rest P → Globals.Rest P { g with stream := r.1, frames := r.2 } := by
    rintro (hidle | hrunning)
    · exact absurd hidle.gone.thread hthread
    · exact Or.inr (hup hrunning)
  cases st with
  | created event => exact hup h
  | starting event pending firstError => exact hup h
  | teardown t event stage =>
      cases stage with
      | mark => exact hup h
      | silence => exact hup h
      | requestStop => exact ⟨hup h.1, h.2⟩
      | close => exact ⟨hup h.1, h.2⟩
      | join => exact ⟨hup h.1, h.2⟩
      | joinFailed ret => exact h.elim
      | publish => exact absurd h.thread hthread
      | notify pending firstError => exact absurd h.1.thread hthread
      | release eventRet => exact absurd h.1.thread hthread
      | wait eventRet => exact absurd h.2.2.thread hthread
      | waiting eventRet => exact h.elim
      | destroy eventRet => exact absurd h.2.2.thread hthread
      | settle eventRet poolRet => exact absurd h.2.2.1.thread hthread
  | _ => exact hrest h

variable [DecidableEq C]

/-- An action of a consumer that has references, or whose callback is running, changes nothing
    a call relies on. -/
theorem CallState.Holds.consumer {c : C} {action : ConsumerAction} {stream : Stream C g.blocks}
    (h : st.Holds P g) (hc : st.callback = some c ∨ ¬ g.stream.Free c)
    (howned : action.Owned g.stream c) (hs : consume P c g.stream action = some stream) :
    st.Holds P { g with stream := stream } := by
  have hup : ∀ {state}, g.Up P state → Globals.Up P state { g with stream := stream } := by
    intro state hup
    have hstep := consume_step hup.live howned hs
    refine ⟨hup.state, ?_, hstep.live⟩
    show stream.thread.isSome = true
    rw [hstep.thread]
    exact hup.thread
  have hjoined : g.Joined P → Globals.Joined P { g with stream := stream } := by
    intro hjoined
    have hstep := consume_step hjoined.live howned hs
    exact ⟨hjoined.state, hjoined.streaming, hstep.thread.trans hjoined.thread, hstep.live⟩
  -- without a callback a consumer needs references
  have hnobody : st.callback = none → ¬ g.stream.Free c := by
    intro hnone
    refine hc.resolve_left ?_
    rw [hnone]
    exact fun heq => by cases heq
  have hrest : st.callback = none → g.Rest P → Globals.Rest P { g with stream := stream } := by
    rintro hnone (hidle | hrunning)
    · exact absurd (hidle.gone.free c) (hnobody hnone)
    · exact Or.inr (hup hrunning)
  cases st with
  | created event => exact hup h
  | starting event pending firstError => exact hup h
  | teardown t event stage =>
      cases stage with
      | mark => exact hup h
      | silence => exact hup h
      | requestStop => exact ⟨hup h.1, h.2⟩
      | close => exact ⟨hup h.1, h.2⟩
      | join => exact ⟨hup h.1, h.2⟩
      | joinFailed ret => exact h.elim
      | publish => exact hjoined h
      | notify pending firstError =>
          obtain ⟨hj, hfree⟩ := h
          have hstep := consume_step hj.live howned hs
          refine ⟨hjoined hj, fun c' hc' => ?_⟩
          have hne : c' ≠ c := by
            rintro rfl
            rcases hc with hhead | hnot
            · exact hc' (List.mem_of_mem_head? hhead)
            · exact hnot (hfree c' hc')
          obtain ⟨hrefs, hheld⟩ := hfree c' hc'
          exact ⟨(hstep.refs c' hne).trans hrefs, fun b => by rw [hstep.held c' hne, hheld]⟩
      | release eventRet => exact absurd (h.2 c) (hnobody rfl)
      | wait eventRet => exact absurd (h.2.2.free c) (hnobody rfl)
      | waiting eventRet => exact h.elim
      | destroy eventRet => exact absurd (h.2.2.free c) (hnobody rfl)
      | settle eventRet poolRet => exact absurd (h.2.2.1.free c) (hnobody rfl)
  | _ => exact hrest rfl h

end Objects

/-! ## The invariant -/

section Invariant

variable {s s' : System T C} {k : Caller T} {e : Event T C}

/-- At most one call is past its section under the mutex, and the camera is as it has left it. -/
def System.Owned (P : Platform) (s : System T C) : Prop :=
  ∃ k, (s.calls k).Holds P s.camera ∧ ∀ k', k' ≠ k → ¬ (s.calls k').Active

theorem System.Owned.active (h : s.Owned P) (hk : (s.calls k).Active) :
    (s.calls k).Holds P s.camera ∧ ∀ k', k' ≠ k → ¬ (s.calls k').Active := by
  obtain ⟨k₀, hholds, hothers⟩ := h
  have heq : k = k₀ := by
    by_contra hne
    exact hothers k hne hk
  rw [heq]
  exact ⟨hholds, hothers⟩

/-- Nobody is past the mutex and the camera rests, or somebody is. -/
theorem System.Owned.cases (h : s.Owned P) :
    (s.camera.Rest P ∧ ∀ k, ¬ (s.calls k).Active) ∨ ∃ k, (s.calls k).Active := by
  obtain ⟨k₀, hholds, hothers⟩ := h
  by_cases hk : (s.calls k₀).Active
  · exact Or.inr ⟨k₀, hk⟩
  · refine Or.inl ⟨(CallState.holds_of_inactive hk).mp hholds, fun k => ?_⟩
    by_cases hne : k = k₀
    · rw [hne]
      exact hk
    · exact hothers k hne

theorem System.Fresh.owned (h : s.Fresh) : s.Owned P := by
  have hnone : ∀ k, ¬ (s.calls k).Active := by
    intro k
    rw [h.calls]
    exact id
  refine ⟨.shutdown, ?_, fun k _ => hnone k⟩
  exact (CallState.holds_of_inactive (hnone _)).mpr (Or.inl ⟨h.state, h.streaming, h.gone⟩)

/-- The call state after a section of a start. -/
def Outcome.started : Outcome → CallState C
  | .leave ret => .returned ret
  | .goOn event => .created event

/-- What one step can do to the camera and the calls. -/
inductive Moves [DecidableEq T] (P : Platform) (s s' : System T C) : Prop
  /-- The next section of a call that is past the mutex. -/
  | acts {k r} : (s.calls k).Active → Advances P s.camera (s.calls k) r →
      s'.calls = Function.update s.calls k r.1 → s'.camera = r.2 → Moves P s s'
  /-- A start that finds the camera idle. -/
  | starts {k config r} : s.camera.Idle → (∀ k', ¬ (s.calls k').Active) →
      s.calls k = .entered (.start config) → Starts P s.camera.trace r →
      s'.calls = Function.update s.calls k r.1.started → s'.camera = r.2 → Moves P s s'
  /-- A stop that finds the camera running. -/
  | stops {k event} : s.camera.Up P .running → (∀ k', ¬ (s.calls k').Active) →
      s.calls k = .entered .stop →
      s'.calls = Function.update s.calls k (.teardown .stop event .silence) →
      s'.camera = { s.camera with state := .stopping } → Moves P s s'
  /-- A call that is not past the mutex moves, and the camera does not. -/
  | quiet {k st} : ¬ (s.calls k).Active → ¬ st.Active → s'.calls = Function.update s.calls k st →
      s'.camera = s.camera → Moves P s s'
  /-- The producer or a consumer does something. -/
  | objects : s'.calls = s.calls → s'.camera.state = s.camera.state →
      s'.camera.blocks = s.camera.blocks → s'.camera.trace = s.camera.trace →
      (∀ k, (s.calls k).Holds P s.camera → (∀ k', k' ≠ k → ¬ (s.calls k').Active) →
        (s.calls k).Holds P s'.camera) → Moves P s s'

variable [DecidableEq T]

theorem Moves.same (hcalls : s'.calls = s.calls) (hcamera : s'.camera = s.camera) :
    Moves P s s' := by
  refine .objects hcalls ?_ ?_ ?_ fun k hholds _ => ?_
  all_goals rw [hcamera]
  exact hholds

theorem active_update {st : CallState C} {k' : Caller T} (hne : k' ≠ k) :
    (Function.update s.calls k st k').Active ↔ (s.calls k').Active := by
  rw [Function.update_of_ne hne]

/-- Every step keeps the invariant. -/
theorem Moves.owned (h : s.Owned P) (hmoves : Moves P s s') : s'.Owned P := by
  -- a caller that has moved, beside callers that are not past the mutex
  have hmoved : ∀ {k st}, s'.calls = Function.update s.calls k st → st.Holds P s'.camera →
      (∀ k', k' ≠ k → ¬ (s.calls k').Active) → s'.Owned P := by
    intro k st hcalls hholds hothers
    refine ⟨k, ?_, fun k' hne => ?_⟩
    · rw [hcalls, Function.update_self]
      exact hholds
    · rw [hcalls, active_update hne]
      exact hothers k' hne
  cases hmoves with
  | acts hactive hadv hcalls hcamera =>
      refine hmoved hcalls ?_ (h.active hactive).2
      rw [hcamera]
      exact hadv.holds
  | @starts k config r hidle hnone hk hstarts hcalls hcamera =>
      refine hmoved hcalls ?_ fun k' _ => hnone k'
      rw [hcamera]
      cases hstarts with
      | failed hret hleft => exact Or.inl hleft
      | created hup => exact hup
  | stops hup hnone hk hcalls hcamera =>
      refine hmoved hcalls ?_ fun k' _ => hnone k'
      rw [hcamera]
      exact ⟨rfl, hup.thread, hup.live⟩
  | @quiet k st hold hnew hcalls hcamera =>
      obtain ⟨k₀, hholds, hothers⟩ := h
      refine ⟨k₀, ?_, fun k' hne => ?_⟩
      · rw [hcalls, hcamera]
        by_cases hk : k₀ = k
        · subst hk
          rw [Function.update_self, CallState.holds_of_inactive hnew]
          exact (CallState.holds_of_inactive hold).mp hholds
        · rw [Function.update_of_ne hk]
          exact hholds
      · rw [hcalls]
        by_cases hk : k' = k
        · rw [hk, Function.update_self]
          exact hnew
        · rw [active_update hk]
          exact hothers k' hne
  | objects hcalls hstate hblocks htrace hkeep =>
      obtain ⟨k₀, hholds, hothers⟩ := h
      refine ⟨k₀, ?_, ?_⟩
      · rw [hcalls]
        exact hkeep k₀ hholds hothers
      · rw [hcalls]
        exact hothers

end Invariant

/-! ## Every step is one of these moves -/

section Next

variable [DecidableEq T] {s s' : System T C} {k : Caller T}

/-- The call and the camera after a section. -/
theorem after_eq {o : Option (CallState C × Globals C)} (h : o.map (s.after k) = some s') :
    ∃ r, o = some r ∧ s'.calls = Function.update s.calls k r.1 ∧ s'.camera = r.2 := by
  obtain ⟨r, hr, rfl⟩ := Option.map_eq_some_iff.mp h
  exact ⟨r, hr, rfl, rfl⟩

/-- A section of a call that is past the mutex. -/
theorem section_moves (h : s.Owned P) {o : Option (CallState C × Globals C)}
    (hactive : ∀ r, o = some r → (s.calls k).Active)
    (hadv : ∀ r, o = some r → (s.calls k).Holds P s.camera →
      Advances P s.camera (s.calls k) r)
    (hnext : o.map (s.after k) = some s') : Moves P s s' := by
  obtain ⟨r, hr, hcalls, hcamera⟩ := after_eq hnext
  exact .acts (hactive r hr) (hadv r hr (h.active (hactive r hr)).1) hcalls hcamera

theorem start_moves (hP : 0 < P.uintMax) (h : s.Owned P) {env : CreateEnv}
    (hnext : (startSection P env s.camera (s.calls k)).map (s.after k) = some s') :
    Moves P s s' := by
  obtain ⟨r, hr, hcalls, hcamera⟩ := after_eq hnext
  cases hk : s.calls k with
  | entered request =>
      have hinactive : ¬ (s.calls k).Active := by
        rw [hk]
        exact id
      cases request with
      | stop => simp [startSection, hk] at hr
      | start config =>
          simp only [startSection, hk] at hr
          -- a camera that is not `STOPPED` refuses the start
          have hrefused : s.camera.state ≠ .stopped → Moves P s s' := by
            intro hstate
            obtain ⟨ret, -, heq⟩ := cameraRealStart_refuses (P := P) hstate config env
            rw [heq] at hr
            obtain rfl := Option.some.inj hr
            exact .quiet hinactive id hcalls hcamera
          rcases h.cases with ⟨hidle | hup, hnone⟩ | ⟨k₀, hk₀⟩
          · have hstarts := cameraRealStart_starts hP hidle config env
            generalize cameraRealStart P config env s.camera = result at hr hstarts
            obtain ⟨outcome, left⟩ := result
            cases outcome with
            | leave ret =>
                obtain rfl := Option.some.inj hr
                exact .starts hidle hnone hk hstarts hcalls hcamera
            | goOn event =>
                obtain rfl := Option.some.inj hr
                exact .starts hidle hnone hk hstarts hcalls hcamera
          · apply hrefused
            simp [hup.state]
          · apply hrefused
            rcases (h.active hk₀).1.busy hk₀ with hstate | hstate
            · simp [hstate]
            · simp [hstate]
  | _ => simp [startSection, hk] at hr

theorem stop_moves (h : s.Owned P)
    (hnext : (stopSection s.camera (s.calls k)).map (s.after k) = some s') : Moves P s s' := by
  obtain ⟨r, hr, hcalls, hcamera⟩ := after_eq hnext
  cases hk : s.calls k with
  | entered request =>
      have hinactive : ¬ (s.calls k).Active := by
        rw [hk]
        exact id
      cases request with
      | start config => simp [stopSection, hk] at hr
      | stop =>
          simp only [stopSection, hk] at hr
          rcases h.cases with ⟨hidle | hup, hnone⟩ | ⟨k₀, hk₀⟩
          · rw [hidle.realStop] at hr
            obtain rfl := Option.some.inj hr
            exact .quiet hinactive id hcalls hcamera
          · rw [hup.realStop] at hr
            obtain rfl := Option.some.inj hr
            exact .stops hup hnone hk hcalls hcamera
          · rw [cameraRealStop_refuses ((h.active hk₀).1.busy hk₀)] at hr
            obtain rfl := Option.some.inj hr
            exact .quiet hinactive id hcalls hcamera
  | _ => simp [stopSection, hk] at hr

theorem proceed_active {g : Globals C} {st : CallState C} {r : CallState C × Globals C}
    (h : proceed P g st = some r) : st.Active := by
  cases st with
  | starting event pending firstError => trivial
  | teardown t event stage => trivial
  | _ => cases h

theorem publish_active {subscribers : Option (List C)} {g : Globals C} {st : CallState C}
    {r : CallState C × Globals C} (h : publish subscribers g st = some r) : st.Active := by
  cases st with
  | created event => trivial
  | teardown t event stage => trivial
  | _ => cases h

theorem wake_active {ret : Int} {g : Globals C} {st : CallState C} {r : CallState C × Globals C}
    (h : wake ret g st = some r) : st.Active := by
  cases st with
  | teardown t event stage => trivial
  | _ => cases h

theorem callbackReturned_active {ret : SysErr} {st st' : CallState C}
    (h : callbackReturned ret st = some st') : st.Active := by
  cases st with
  | starting event pending firstError => trivial
  | teardown t event stage => trivial
  | _ => cases h

theorem callbackReturned_moves (h : s.Owned P) {ret : SysErr}
    (hcontract : Contract s (.callbackReturned k ret))
    (hnext : (callbackReturned ret (s.calls k)).map (s.setCall k) = some s') : Moves P s s' := by
  obtain ⟨st', hst, rfl⟩ := Option.map_eq_some_iff.mp hnext
  have hactive := callbackReturned_active hst
  exact .acts hactive (callbackReturned_advances (h.active hactive).1 hcontract hst) rfl rfl

/-- A consumer uses a stream only through its references or in its callback. -/
theorem contract_consumer (hothers : ∀ k', k' ≠ k → ¬ (s.calls k').Active) {c : C}
    {action : ConsumerAction} (hcontract : Contract s (.consumer c action)) :
    ((s.calls k).callback = some c ∨ ¬ s.camera.stream.Free c) ∧
      action.Owned s.camera.stream c := by
  have hmayUse : s.MayUse c → (s.calls k).callback = some c ∨ ¬ s.camera.stream.Free c := by
    rintro (⟨k', hk'⟩ | hrefs)
    · left
      by_cases hne : k' = k
      · rw [← hne]
        exact hk'
      · rw [CallState.inactive_callback (hothers k' hne)] at hk'
        cases hk'
    · right
      intro hfree
      have hzero := hfree.1
      omega
  have hholds : ∀ {buffer}, s.HoldsBuffer c buffer → ¬ s.camera.stream.Free c := by
    rintro buffer ⟨hb, hheld⟩ hfree
    have hzero := hfree.2 ⟨buffer, hb⟩
    omega
  cases action with
  | retain => exact ⟨hmayUse hcontract, trivial⟩
  | release => exact ⟨hmayUse (Or.inr hcontract), hcontract⟩
  | receive timeoutMs ret => exact ⟨hmayUse hcontract, trivial⟩
  | bufferRetain buffer => exact ⟨Or.inr (hholds hcontract), hcontract⟩
  | bufferRelease buffer => exact ⟨Or.inr (hholds hcontract), hcontract⟩

variable [DecidableEq C] {e : Event T C}

theorem consumer_moves {c : C} {action : ConsumerAction}
    (hcontract : Contract s (.consumer c action))
    (hnext : next P s (.consumer c action) = some s') : Moves P s s' := by
  obtain ⟨stream, hs, rfl⟩ := Option.map_eq_some_iff.mp hnext
  refine .objects rfl rfl rfl rfl fun k hholds hothers => ?_
  obtain ⟨hmay, howned⟩ := contract_consumer hothers hcontract
  exact hholds.consumer hmay howned hs

theorem next_moves (hP : 0 < P.uintMax) (h : s.Owned P) (hcontract : Contract s e)
    (hnext : next P s e = some s') : Moves P s s' := by
  cases next_cases hnext with
  | @acquired t request slot hidle _ =>
      have hinactive : ¬ (s.calls (.thread t)).Active := by
        rw [hidle]
        exact id
      exact .quiet hinactive id rfl rfl
  | refused _ => exact Moves.same rfl rfl
  | start _ => exact start_moves hP h hnext
  | stop _ => exact stop_moves h hnext
  | publish _ =>
      exact section_moves h (fun r hr => publish_active hr)
        (fun r hr hholds => publish_advances hholds hcontract hr) hnext
  | callbackReturned _ => exact callbackReturned_moves h hcontract hnext
  | proceed _ =>
      exact section_moves h (fun r hr => proceed_active hr)
        (fun r hr hholds => proceed_advances hholds hr) hnext
  | wake _ =>
      exact section_moves h (fun r hr => wake_active hr)
        (fun r hr hholds => wake_advances hholds hr) hnext
  | @release t ret hk =>
      have hinactive : ¬ (s.calls (.thread t)).Active := by
        rw [hk]
        exact id
      exact .quiet hinactive id rfl rfl
  | componentStop _ hidle =>
      have hinactive : ¬ (s.calls .shutdown).Active := by
        rw [hidle]
        exact id
      exact .quiet hinactive id rfl rfl
  | componentStopped _ hk =>
      have hinactive : ¬ (s.calls .shutdown).Active := by
        rw [hk]
        exact id
      exact .quiet hinactive id rfl rfl
  | deinit _ => exact Moves.same rfl rfl
  | unregisterWake _ => exact Moves.same rfl rfl
  | producer hr => exact .objects rfl rfl rfl rfl fun k hholds _ => hholds.producer hr
  | consumer _ => exact consumer_moves hcontract hnext

/-- Every step of the machine is one of the moves. -/
theorem step_moves (hP : 0 < P.uintMax) (h : s.Owned P)
    (hstep : (cameraMachine T C P).step s e s') : Moves P s s' :=
  next_moves hP h hstep.2 hstep.1

theorem owned_of_reachable (hP : 0 < P.uintMax) (h : (cameraMachine T C P).Reachable s) :
    s.Owned P :=
  h.invariant (fun _ (hfresh : System.Fresh _) => hfresh.owned)
    fun _ _ _ howned hstep => (step_moves hP howned hstep).owned howned

end Next

end Camera
end AppCore
