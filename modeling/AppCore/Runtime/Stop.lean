/-
  AppCore.Runtime.Stop

  What becomes of a signal or of a stop request: no signal ends the process while it has a
  runtime, and what has asked the process to stop waits for a `sys_runtime_wait` that returns
  `SYS_ERR_CANCELLED`, one for each of these results.
-/

import AppCore.Runtime.Presence

namespace AppCore
namespace Runtime

variable {T : Type*} [DecidableEq T] {s s' : Process T} {e : Event T} {es : List (Event T)}

/-! ## The waits -/

/-- Every wait uses a runtime that its owner does not destroy. -/
def Process.Waiting (s : Process T) : Prop :=
  ∀ t r, (s.calls t).waitsOn = some r → s.Usable r

omit [DecidableEq T] in
/-- A step that leaves the runtimes and the stages alone, and begins no wait. -/
theorem Process.Waiting.keep (h : s.Waiting) (hruntimes : s'.runtimes = s.runtimes)
    (hstages : s'.stageOf = s.stageOf)
    (hwaits : ∀ t r, (s'.calls t).waitsOn = some r → s.Usable r ∨ (s.calls t).waitsOn = some r) :
    s'.Waiting := by
  intro t r hr
  have husable : s.Usable r := (hwaits t r hr).elim id (h t r)
  obtain ⟨x, hx, hstage⟩ := husable
  exact ⟨x, by rwa [hruntimes], by rwa [hstages]⟩

/-- Only the call that goes on can begin a wait. -/
theorem waitsOn_setCall {t t' : T} {st : CallState} {r : Nat}
    (h : ((s.setCall t st).calls t').waitsOn = some r) :
    st.waitsOn = some r ∨ (s.calls t').waitsOn = some r := by
  have hcalls : (s.setCall t st).calls t' = if t' = t then st else s.calls t' :=
    Function.update_apply ..
  rw [hcalls] at h
  split at h
  · exact Or.inl h
  · exact Or.inr h

/-- Nobody waits while a runtime is made or destroyed. -/
theorem Process.Waiting.none_waits (h : s.Waiting) (hs : s.Sound) {t t' : T} {r : Nat}
    (hstage : s.stageOf t ≠ .none) : (s.calls t').waitsOn ≠ some r := by
  intro hr
  obtain ⟨x, hx, hnone⟩ := h t' r hr
  obtain ⟨value, -, rfl⟩ := hs.presentOf hx hstage
  exact hstage hnone

/-- So nobody does after a section of such a call. -/
theorem Process.Waiting.section (h : s.Waiting) (hs : s.Sound) {u : Process T} {t : T}
    {st : CallState} (hstage : s.stageOf t ≠ .none) (hcalls : u.calls = s.calls)
    (hst : st.waitsOn = none) : (u.setCall t st).Waiting := by
  intro t' r hr
  rcases waitsOn_setCall hr with hnew | hold
  · rw [hst] at hnew
    cases hnew
  · rw [hcalls] at hold
    exact absurd hold (h.none_waits hs hstage)

theorem step_waiting (h : RuntimeStep s e s') (hcontract : Contract s e) (hsound : s.Sound)
    (hs : s.Waiting) : s'.Waiting := by
  have hne : ∀ {t : T} {st : CallState}, s.calls t = st → st.stage ≠ .none →
      s.stageOf t ≠ .none := by
    intro t st hc hst
    rwa [Process.stageOf, hc]
  have hanswer : ∀ {t t' : T} {ret : SysErr} {out : Option Nat} {r : Nat},
      ((s.setCall t (.returned ret out)).calls t').waitsOn = some r →
        s.Usable r ∨ (s.calls t').waitsOn = some r :=
    fun hr => Or.inr ((waitsOn_setCall hr).resolve_left (by intro hnone; cases hnone))
  cases h with
  | @call e t st hstage hst hwaits _ =>
      refine hs.keep rfl (stageOf_setCall_of_eq (hst.trans hstage.symm)) fun t' r hr => ?_
      rcases waitsOn_setCall hr with hnew | hold
      · rcases hwaits r hnew with hold | ⟨timeoutMs, rfl⟩
        · exact Or.inl (hs t r hold)
        · exact Or.inl hcontract
      · exact Or.inr hold
  | @created t r _ _ =>
      intro t' r' hr'
      have hwaits := (waitsOn_setCall hr').resolve_left (by intro hnone; cases hnone)
      obtain ⟨x, hx, -⟩ := hs t' r' hwaits
      rw [hcontract.2.1] at hx
      cases hx
  | signalFailed hc => exact hs.section hsound (hne hc (by simp [CallState.stage])) rfl rfl
  | signalOpened hc _ _ => exact hs.section hsound (hne hc (by simp [CallState.stage])) rfl rfl
  | stopFailed hc => exact hs.section hsound (hne hc (by simp [CallState.stage])) rfl rfl
  | stopOpened hc _ _ =>
      refine hs.section hsound (hne hc (by simp [CallState.stage])) rfl ?_
      split <;> rfl
  | @signalClosed t r creating ret errno x hc _ =>
      refine hs.section hsound (hne hc (by simp [CallState.stage])) ?_ rfl
      cases x.signalFd <;> rfl
  | @stopClosed t r creating ret ret' errno x hc _ =>
      refine hs.section hsound (hne hc (by simp [CallState.stage])) ?_ rfl
      cases x.stopFd <;> rfl
  | restored hc _ =>
      refine hs.section hsound (hne hc (by simp [CallState.stage])) ?_ rfl
      split <;> rfl
  | @destroyed t r x hfree hx howner =>
      intro t' r' hr'
      have hold := (waitsOn_setCall hr').resolve_left (by intro hnone; cases hnone)
      obtain ⟨x', hx', -⟩ := hs t' r' hold
      obtain ⟨value, hpresent⟩ := hsound.present hx
      rw [hpresent.runtimes] at hx'
      obtain ⟨rfl, -⟩ := Option.ite_none_right_eq_some.mp hx'
      exact absurd hold (hcontract.2 t')
  | readSignal hc _ _ =>
      refine hs.keep rfl (stageOf_setCall_of_eq ?_) fun t' r' hr' => hanswer hr'
      exact (congrArg CallState.stage hc).symm
  | readStop hc _ _ _ _ =>
      refine hs.keep rfl (stageOf_setCall_of_eq ?_) fun t' r' hr' => hanswer hr'
      exact (congrArg CallState.stage hc).symm
  | requested hfree _ _ _ =>
      exact hs.keep rfl (stageOf_setCall_of_eq hfree.stage.symm) fun t' r' hr' => hanswer hr'
  | sent => exact hs.keep rfl rfl fun _ _ hr => Or.inr hr
  | delivered _ _ => exact hs.keep rfl rfl fun _ _ hr => Or.inr hr
  | spawned _ _ => exact hs.keep rfl rfl fun _ _ hr => Or.inr hr
  | exited _ => exact hs.keep rfl rfl fun _ _ hr => Or.inr hr

theorem sound_of_reachable (h : (runtimeMachine T).Reachable s) : s.Sound ∧ s.Waiting := by
  apply h.invariant (I := fun s => s.Sound ∧ s.Waiting)
  · intro s hfresh
    refine ⟨Or.inl hfresh.absent, fun t r hr => ?_⟩
    rw [hfresh.calls] at hr
    cases hr
  · intro s e s' hs hstep
    obtain ⟨-, hcases⟩ := next_cases hstep.1
    exact ⟨step_sound hcases hstep.2 hs.1, step_waiting hcases hstep.2 hs.1 hs.2⟩

/-! ## The signals -/

/-- Only a signal that a thread does not block ends the process. -/
theorem step_killed (h : RuntimeStep s e s') (hs : s.killed = false) (hs' : s'.killed = true) :
    ∃ t sig, e = .deliver t sig ∧ s.live t = true ∧ s.masks t sig = false ∧
      signalMask sig = true := by
  cases h with
  | @delivered t sig hlive hmask => exact ⟨t, sig, rfl, hlive, hmask, hs'⟩
  | @signalClosed t r creating ret errno x _ _ =>
      cases hfd : x.signalFd <;> simp_all [Process.close, Process.setCall, Process.setFile]
  | @stopClosed t r creating ret ret' errno x _ _ =>
      cases hfd : x.stopFd <;> simp_all [Process.close, Process.setCall, Process.setFile]
  | restored _ _ =>
      split at hs' <;>
        simp_all [Process.setRuntime, Process.setCall, Process.setMask]
  | _ =>
      have hsame : s.killed = true := hs'
      rw [hs] at hsame
      cases hsame

/-- The two signals that `sys_runtime_create` blocks. -/
theorem signalMask_cases {sig : Nat} (h : signalMask sig = true) :
    sig = SIGINT ∨ sig = SIGTERM := by
  simpa [signalMask] using h

omit [DecidableEq T] in
/-- A thread that does not block one of them runs in a process without a runtime. -/
theorem Process.Sound.none_of_unblocked (h : s.Sound) {t : T} {sig : Nat}
    (hlive : s.live t = true) (hmask : s.masks t sig = false) (hsig : signalMask sig = true)
    (r : Nat) : s.runtimes r = none := by
  cases hr : s.runtimes r with
  | none => rfl
  | some x =>
      obtain ⟨value, hpresent⟩ := h.present hr
      have hblocked := hpresent.blocked t hlive
      rcases signalMask_cases hsig with rfl | rfl
      · rw [hblocked.1] at hmask
        cases hmask
      · rw [hblocked.2] at hmask
        cases hmask

/-- As long as the process has a runtime, from the moment its creator blocks them, every thread
    blocks `SIGINT` and `SIGTERM`, so that they end the process only when it has none. -/
theorem killed_without_runtime (hs : (runtimeMachine T).Reachable s) :
    (∀ r x, s.runtimes r = some x →
      ∀ t, s.live t = true → s.masks t SIGINT = true ∧ s.masks t SIGTERM = true) ∧
      ∀ es s', (runtimeMachine T).Run s es s' → s.killed = false → s'.killed = true →
        ∃ pre t sig post u v, es = pre ++ .deliver t sig :: post ∧
          (runtimeMachine T).Run s pre u ∧ (runtimeMachine T).step u (.deliver t sig) v ∧
          ∀ r, u.runtimes r = none := by
  constructor
  · intro r x hx
    obtain ⟨value, hpresent⟩ := (sound_of_reachable hs).1.present hx
    exact hpresent.blocked
  · intro es s' hrun hlive hkilled
    obtain ⟨pre, e, post, u, v, rfl, hpre, hstep, hu, hv⟩ :=
      hrun.exists_losing_step (P := fun s => s.killed = false) hlive (by rw [hkilled]; simp)
    obtain ⟨t, sig, rfl, halive, hmask, hsig⟩ :=
      step_killed (next_cases hstep.1).2 hu (by simpa using hv)
    exact ⟨pre, t, sig, post, u, v, rfl, hpre, hstep,
      (sound_of_reachable (hs.run hpre)).1.none_of_unblocked halive hmask hsig⟩

/-! ## What asks the process to stop -/

/-- Who asks the process to stop: a signal, or the counter behind a descriptor. -/
inductive Asker where
  | signal (sig : Nat)
  | counter (fd : Nat)
deriving DecidableEq, Repr

/-- It has asked, and no wait has answered it yet. -/
def Process.AskedBy (s : Process T) : Asker → Prop
  | .signal sig => signalMask sig = true ∧ s.pending sig = true
  | .counter fd => ∃ value, s.files fd = some (.stop (value + 1))

/-- The steps that end it.  A wait that takes one signal, or the counter, takes nothing else. -/
inductive Taken (s : Process T) : Asker → Event T → Process T → Prop
  | readSignal {t r sig} : s.calls t = .readingSignal r →
      Taken s (.signal sig) (.read t)
        ({ s with pending := Function.update s.pending sig false }.setCall t
          (.returned .cancelled none))
  | readCounter {t r x fd} : s.calls t = .readingStop r → s.runtimes r = some x →
      x.stopFd = some fd →
      Taken s (.counter fd) (.read t)
        ((s.setFile fd (some (.stop 0))).setCall t (.returned .cancelled none))
  /-- `sys_runtime_destroy` closes the descriptor. -/
  | closed {t r ret creating x fd errno s'} : s.calls t = .closingStop r ret creating →
      s.runtimes r = some x → x.stopFd = some fd → Taken s (.counter fd) (.closed t errno) s'
  /-- The signal ends a process without a runtime. -/
  | delivered {t sig s'} : (∀ r, s.runtimes r = none) → s'.killed = true →
      Taken s (.signal sig) (.deliver t sig) s'

@[simp]
theorem setCall_pending (s : Process T) (t : T) (st : CallState) :
    (s.setCall t st).pending = s.pending := rfl

omit [DecidableEq T] in
@[simp]
theorem close_pending (s : Process T) (fd : Option Nat) : (s.close fd).pending = s.pending := by
  cases fd <;> rfl

omit [DecidableEq T] in
theorem Process.AskedBy.setFile {fd fd' : Nat} (h : s.AskedBy (.counter fd)) (hne : fd ≠ fd')
    (f : Option File) : (s.setFile fd' f).AskedBy (.counter fd) := by
  obtain ⟨value, hfd⟩ := h
  exact ⟨value, (Function.update_of_ne hne ..).trans hfd⟩

/-- A signal stays pending until it is taken. -/
theorem step_signal {sig : Nat} (h : RuntimeStep s e s') (hsound : s.Sound)
    (hs : s.AskedBy (.signal sig)) (hs' : ¬ s'.AskedBy (.signal sig)) :
    Taken s (.signal sig) e s' := by
  obtain ⟨hsig, hpending⟩ := hs
  have hkeep : s'.pending sig ≠ true := fun hsame => hs' ⟨hsig, hsame⟩
  cases h with
  | signalClosed _ _ => exact absurd (by simpa using hpending) hkeep
  | stopClosed _ _ => exact absurd (by simpa using hpending) hkeep
  | restored _ _ =>
      refine absurd ?_ hkeep
      split <;> exact hpending
  | @readSignal t r sig' hc _ _ =>
      -- the wait may take the other of the two
      by_cases hsame : sig = sig'
      · subst hsame
        exact .readSignal hc
      · exact absurd ((Function.update_of_ne hsame ..).trans hpending) hkeep
  | @sent sig' =>
      refine absurd ?_ hkeep
      show Function.update s.pending sig' true sig = true
      rw [Function.update_apply]
      split
      · rfl
      · exact hpending
  | @delivered t sig' hlive hmask =>
      by_cases hsame : sig = sig'
      · -- a thread that takes the signal does not block it
        subst hsame
        exact .delivered (hsound.none_of_unblocked hlive hmask hsig) hsig
      · exact absurd ((Function.update_of_ne hsame ..).trans hpending) hkeep
  | _ => exact absurd hpending hkeep

/-- A counter stays as it is, or grows, until it is read or its descriptor is closed. -/
theorem step_counter {fd : Nat} (h : RuntimeStep s e s') (hsound : s.Sound)
    (hs : s.AskedBy (.counter fd)) (hs' : ¬ s'.AskedBy (.counter fd)) :
    Taken s (.counter fd) e s' := by
  -- a new descriptor is another one
  have hopen : ∀ {fd' : Nat}, s.files fd' = none → fd ≠ fd' := by
    rintro fd' hfd' rfl
    obtain ⟨value, hfd⟩ := hs
    rw [hfd'] at hfd
    cases hfd
  cases h with
  | signalOpened _ _ hfd' => exact absurd (hs.setFile (hopen hfd') _) hs'
  | stopOpened _ _ hfd' => exact absurd (hs.setFile (hopen hfd') _) hs'
  | @signalClosed t r creating ret errno x _ hx =>
      cases hfd' : x.signalFd with
      | none =>
          rw [hfd'] at hs'
          exact absurd hs hs'
      | some fd' =>
          -- so is the descriptor of the signals, or it is closed already
          have hne : fd ≠ fd' := by
            rintro rfl
            obtain ⟨value, hpresent⟩ := hsound.present hx
            obtain ⟨value', hfd⟩ := hs
            rw [hpresent.files, SysRuntime.files] at hfd
            split at hfd
            · cases hfd
            · exact hpresent.distinct fd hfd' (Option.ite_none_right_eq_some.mp hfd).1.1
          rw [hfd'] at hs'
          exact absurd (hs.setFile hne _) hs'
  | @stopClosed t r creating ret ret' errno x hc hx =>
      cases hfd' : x.stopFd with
      | none =>
          rw [hfd'] at hs'
          exact absurd hs hs'
      | some fd' =>
          by_cases hsame : fd = fd'
          · subst hsame
            exact .closed hc hx hfd'
          · rw [hfd'] at hs'
            exact absurd (hs.setFile hsame _) hs'
  | restored _ _ =>
      refine absurd ?_ hs'
      split <;> exact hs
  | @readStop t r x fd' value hc hx hfd' _ _ =>
      by_cases hsame : fd = fd'
      · subst hsame
        exact .readCounter hc hx hfd'
      · exact absurd (hs.setFile hsame _) hs'
  | @requested t r x fd' value _ _ _ _ =>
      by_cases hsame : fd = fd'
      · subst hsame
        exact absurd ⟨value, Function.update_self ..⟩ hs'
      · exact absurd (hs.setFile hsame _) hs'
  | _ => exact absurd hs hs'

/-- A signal that is sent is pending. -/
theorem kill_asked {sig : Nat} (hsig : signalMask sig = true)
    (h : next s (.kill sig) = some s') : s'.AskedBy (.signal sig) := by
  obtain ⟨-, h⟩ := Option.ite_none_left_eq_some.mp h
  obtain rfl := Option.some.inj h
  exact ⟨hsig, Function.update_self ..⟩

/-- A request that is accepted is in the counter. -/
theorem requestStop_asked {t : T} {r : Nat} (h : next s (.requestStop t (some r)) = some s')
    (hok : s'.calls t = .returned .ok none) :
    ∃ x fd, s.runtimes r = some x ∧ x.stopFd = some fd ∧ s'.AskedBy (.counter fd) := by
  obtain ⟨-, h⟩ := Option.ite_none_left_eq_some.mp h
  obtain ⟨-, h⟩ := Option.ite_none_right_eq_some.mp h
  obtain ⟨x, hx, h⟩ := Option.map_eq_some_iff.mp h
  have hrefused : ∀ {ret : SysErr}, ret ≠ .ok → s.setCall t (.returned ret none) ≠ s' := by
    rintro ret hret rfl
    have hself : (s.setCall t (.returned ret none)).calls t = .returned ret none :=
      Function.update_self ..
    exact hret (CallState.returned.inj (hself.symm.trans hok)).1
  split at h
  · exact absurd h (hrefused (by decide))
  rename_i fd hfd
  split at h
  · split at h
    · obtain rfl := h
      exact ⟨x, fd, hx, hfd, _, Function.update_self ..⟩
    · exact absurd h (hrefused (by decide))
  · exact absurd h (hrefused (by decide))

/-- No signal and no request to stop is lost.  A signal that is sent is pending, and a request
    that is accepted is in the counter of the runtime; each of them is there until a
    `sys_runtime_wait` has returned `SYS_ERR_CANCELLED` for it, the runtime with the counter is
    destroyed, or the signal ends a process without a runtime. -/
theorem stop_not_lost (hs : (runtimeMachine T).Reachable s) :
    (∀ sig s', signalMask sig = true → (runtimeMachine T).step s (.kill sig) s' →
      s'.AskedBy (.signal sig)) ∧
    (∀ t r s', (runtimeMachine T).step s (.requestStop t (some r)) s' →
      s'.calls t = .returned .ok none →
        ∃ x fd, s.runtimes r = some x ∧ x.stopFd = some fd ∧ s'.AskedBy (.counter fd)) ∧
    ∀ a es s', s.AskedBy a → (runtimeMachine T).Run s es s' → ¬ s'.AskedBy a →
      ∃ pre e post u v, es = pre ++ e :: post ∧ (runtimeMachine T).Run s pre u ∧
        u.AskedBy a ∧ (runtimeMachine T).step u e v ∧ Taken u a e v := by
  refine ⟨fun sig s' hsig hstep => kill_asked hsig hstep.1,
    fun t r s' hstep hok => requestStop_asked hstep.1 hok, fun a es s' hasked hrun hgone => ?_⟩
  obtain ⟨pre, e, post, u, v, rfl, hpre, hstep, hu, hv⟩ :=
    hrun.exists_losing_step (P := fun s => s.AskedBy a) hasked hgone
  obtain ⟨-, hcases⟩ := next_cases hstep.1
  have hsound := (sound_of_reachable (hs.run hpre)).1
  refine ⟨pre, e, post, u, v, rfl, hpre, hu, hstep, ?_⟩
  cases a with
  | signal sig => exact step_signal hcases hsound hu hv
  | counter fd => exact step_counter hcases hsound hu hv

/-! ## The waits that find it -/

/-- A signal is pending, or the counter of the runtime is not zero. -/
def Process.Asked (s : Process T) : Prop :=
  s.pending SIGINT = true ∨ s.pending SIGTERM = true ∨
    ∃ fd value, s.files fd = some (.stop (value + 1))

omit [DecidableEq T] in
theorem Process.AskedBy.asked {a : Asker} (h : s.AskedBy a) : s.Asked := by
  cases a with
  | signal sig =>
      obtain ⟨hsig, hpending⟩ := h
      rcases signalMask_cases hsig with rfl | rfl
      · exact Or.inl hpending
      · exact Or.inr (Or.inl hpending)
  | counter fd =>
      obtain ⟨value, hfd⟩ := h
      exact Or.inr (Or.inr ⟨fd, value, hfd⟩)

omit [DecidableEq T] in
/-- What `poll` finds in the descriptors of a runtime in use. -/
theorem Process.Present.readable {r : Nat} {x : SysRuntime T} {value : Nat}
    (h : s.Present r x value) (hstage : s.stageOf x.owner = .none) :
    s.readable x.signalFd = some (s.pending SIGINT || s.pending SIGTERM) ∧
      s.readable x.stopFd = some (decide (0 < value)) ∧
      ∃ fd, x.stopFd = some fd ∧ s.files fd = some (.stop value) := by
  have hopened := h.opened
  rw [hstage] at hopened
  obtain ⟨⟨fd, hfd⟩, fd', hfd'⟩ := hopened
  have hsignal : s.files fd = some .signal := by
    rw [h.files, hstage, SysRuntime.files, if_pos ⟨hfd, rfl⟩]
  have hstop : s.files fd' = some (.stop value) := by
    have hdistinct : x.signalFd ≠ some fd' := fun hsame => h.distinct fd' hsame hfd'
    rw [h.files, hstage, SysRuntime.files, if_neg (fun hsame => hdistinct hsame.1),
      if_pos ⟨hfd', rfl⟩]
  refine ⟨?_, ?_, fd', hfd', hstop⟩
  · rw [hfd, Process.readable, Option.bind_some, hsignal]
    rfl
  · rw [hfd', Process.readable, Option.bind_some, hstop]
    rfl

omit [DecidableEq T] in
theorem Process.Present.value_pos {r : Nat} {x : SysRuntime T} {value : Nat}
    (h : s.Present r x value) (hasked : s.Asked) (hint : s.pending SIGINT = false)
    (hterm : s.pending SIGTERM = false) : 0 < value := by
  rcases hasked with h' | h' | ⟨fd, value', hfd⟩
  · rw [hint] at h'
    cases h'
  · rw [hterm] at h'
    cases h'
  · rw [h.files, SysRuntime.files] at hfd
    split at hfd
    · cases hfd
    · obtain ⟨-, hvalue⟩ := Option.ite_none_right_eq_some.mp hfd
      have hsucc := File.stop.inj (Option.some.inj hvalue)
      omega

theorem next_alive (hlive : s.killed = false) (e : Event T) : next s e = step s e := by
  rw [next, hlive]
  exact if_neg (by simp)

section Wait

variable {t : T} {r : Nat} {x : SysRuntime T} {timeoutMs : Int}

/-- A pending signal makes the `read` of a wait return. -/
theorem read_signal (hlive : s.killed = false) (hc : s.calls t = .readingSignal r)
    (hpending : (s.pending SIGINT || s.pending SIGTERM) = true) :
    ∃ s', (runtimeMachine T).step s (.read t) s' ∧ s'.calls t = .returned .cancelled none := by
  have hnext : next s (.read t) = readSection s t := next_alive hlive _
  rw [readSection, hc] at hnext
  cases hint : s.pending SIGINT with
  | true => exact ⟨_, ⟨hnext.trans (if_pos hint), trivial⟩, Function.update_self ..⟩
  | false =>
      rw [hint, Bool.false_or] at hpending
      exact ⟨_, ⟨hnext.trans ((if_neg (by simp [hint])).trans (if_pos hpending)), trivial⟩,
        Function.update_self ..⟩

/-- So does a counter that is not zero. -/
theorem read_stop {fd value : Nat} (hlive : s.killed = false) (hc : s.calls t = .readingStop r)
    (hx : s.runtimes r = some x) (hfd : x.stopFd = some fd)
    (hfile : s.files fd = some (.stop value)) (hpos : 0 < value) :
    ∃ s', (runtimeMachine T).step s (.read t) s' ∧ s'.calls t = .returned .cancelled none := by
  have hnext : next s (.read t) = readSection s t := next_alive hlive _
  rw [readSection, hc] at hnext
  simp only [hx, hfd, hfile, Option.bind_some] at hnext
  exact ⟨_, ⟨hnext.trans (if_pos hpos), trivial⟩, Function.update_self ..⟩

/-- A wait finds it, and does not run into its timeout: unless somebody else takes it first,
    the wait returns `SYS_ERR_CANCELLED` by two steps of its own. -/
theorem asked_wait_cancelled (h : (runtimeMachine T).Reachable s) (hlive : s.killed = false)
    (hc : s.calls t = .polling r timeoutMs) (hasked : s.Asked) :
    (∀ s', ¬ (runtimeMachine T).step s (.polled t .timeout) s') ∧
      ∃ s', (runtimeMachine T).Run s [.polled t .ready, .read t] s' ∧
        s'.calls t = .returned .cancelled none := by
  obtain ⟨hsound, hwaiting⟩ := sound_of_reachable h
  obtain ⟨x, hx, hstage⟩ := hwaiting t r (by rw [hc]; rfl)
  obtain ⟨value, hpresent⟩ := hsound.present hx
  obtain ⟨hsignal, hstop, fd, hfd, hfile⟩ := hpresent.readable hstage
  have hpoll : ∀ result, next s (.polled t result) = pollSection s t result :=
    fun result => next_alive hlive _
  simp only [pollSection, hc, hx, hsignal, hstop, Option.bind_some] at hpoll
  cases hpending : (s.pending SIGINT || s.pending SIGTERM) with
  | true =>
      constructor
      · rintro s' ⟨hstep, -⟩
        have hnext := (hpoll .timeout).symm.trans hstep
        simp [hpending] at hnext
      · have hready : next s (.polled t .ready) = some (s.setCall t (.readingSignal r)) := by
          rw [hpoll, hpending]
          rfl
        obtain ⟨s', hread, hresult⟩ := read_signal (s := s.setCall t (.readingSignal r)) hlive
          (Function.update_self ..) hpending
        have hfirst : (runtimeMachine T).Run s [.polled t .ready] _ :=
          Machine.Run.single ⟨hready, trivial⟩
        exact ⟨s', hfirst.snoc hread, hresult⟩
  | false =>
      obtain ⟨hint, hterm⟩ := Bool.or_eq_false_iff.mp hpending
      have hpos := hpresent.value_pos hasked hint hterm
      constructor
      · rintro s' ⟨hstep, -⟩
        have hnext := (hpoll .timeout).symm.trans hstep
        simp [hpos] at hnext
      · have hready : next s (.polled t .ready) = some (s.setCall t (.readingStop r)) := by
          rw [hpoll, hpending]
          simp [hpos]
        obtain ⟨s', hread, hresult⟩ := read_stop (s := s.setCall t (.readingStop r)) hlive
          (Function.update_self ..) hx hfd hfile hpos
        have hfirst : (runtimeMachine T).Run s [.polled t .ready] _ :=
          Machine.Run.single ⟨hready, trivial⟩
        exact ⟨s', hfirst.snoc hread, hresult⟩

end Wait

/-! ## One runtime -/

/-- A process with one thread, which blocks nothing. -/
def start : Process Unit := { live := fun _ => true, masks := fun _ _ => false }

/-- The thread creates a runtime and waits, and a signal is sent. -/
def waits : List (Event Unit) :=
  [.create () true (some 0) 0, .opened () (.ok 3), .opened () (.ok 4), .done (),
    .wait () (some 0) 500, .kill SIGTERM]

/-- The wait returns, and the thread destroys the runtime. -/
def ends : List (Event Unit) :=
  [.polled () .ready, .read (), .done (), .destroy () (some 0), .closed () 0, .closed () 0,
    .restored () 0]

theorem start_fresh : start.Fresh := ⟨rfl, rfl, rfl, rfl, rfl⟩

theorem waits_run {s : Process Unit} (hs : Machine.exec next start waits = some s) :
    (runtimeMachine Unit).Run start waits s := by
  apply Machine.Run.of_exec_along hs
  -- the thread is alone when it creates the runtime, and nobody destroys it before the wait
  refine .cons ⟨fun _ _ => rfl, fun _ => rfl, rfl⟩ rfl (.cons trivial rfl (.cons trivial rfl
    (.cons trivial rfl ?_)))
  exact ⟨⟨_, rfl, rfl⟩, fun t _ => ⟨trivial, fun t _ => trivial⟩⟩

theorem waits_reachable {s : Process Unit} (hs : Machine.exec next start waits = some s) :
    (runtimeMachine Unit).Reachable s := ⟨start, waits, start_fresh, waits_run hs⟩

/-- The process after both. -/
def afterEnds : Option (Process Unit) :=
  (Machine.exec next start waits).bind fun s => Machine.exec next s ends

theorem ends_run {s' : Process Unit} (hs' : afterEnds = some s') :
    ∃ s, Machine.exec next start waits = some s ∧ (runtimeMachine Unit).Run s ends s' := by
  have hwaits : Machine.exec next start waits = some _ := rfl
  rw [afterEnds, hwaits, Option.bind_some] at hs'
  refine ⟨_, hwaits, Machine.Run.of_exec_along hs' ?_⟩
  refine .cons trivial rfl (.cons trivial rfl (.cons trivial rfl ?_))
  refine ⟨⟨⟨_, rfl, rfl⟩, fun _ => by rintro ⟨⟩⟩, fun t _ => ?_⟩
  exact ⟨trivial, fun t _ => ⟨trivial, fun t _ => ⟨rfl, fun t _ => trivial⟩⟩⟩

/-- Then its runtime is gone. -/
theorem ends_none {s' : Process Unit} (hs' : afterEnds = some s') (r : Nat) :
    s'.runtimes r = none := by
  have hends : afterEnds = some _ := rfl
  obtain rfl := Option.some.inj (hs'.symm.trans hends)
  cases r with
  | zero => rfl
  | succ n => rfl

/-- The thread blocks both signals as long as it has its runtime, and a signal ends the
    process afterwards. -/
theorem killed_without_runtime_later :
    ∃ s : Process Unit, s.masks () SIGINT = true ∧ s.masks () SIGTERM = true ∧
      ∃ pre t sig post u v, ends ++ [.kill SIGINT, .deliver () SIGINT] =
          pre ++ .deliver t sig :: post ∧ (runtimeMachine Unit).Run s pre u ∧
        (runtimeMachine Unit).step u (.deliver t sig) v ∧ ∀ r, u.runtimes r = none := by
  have hends : afterEnds = some _ := rfl
  have hkilled : (afterEnds.bind fun s =>
    Machine.exec next s [.kill SIGINT, .deliver () SIGINT]) = some _ := rfl
  rw [hends, Option.bind_some] at hkilled
  obtain ⟨s, hs, hrun⟩ := ends_run hends
  have hlater := hrun.append
    (Machine.Run.of_exec_along hkilled ⟨trivial, fun t _ => ⟨trivial, fun t _ => trivial⟩⟩)
  have hwaits : Machine.exec next start waits = some _ := rfl
  obtain rfl := Option.some.inj (hs.symm.trans hwaits)
  obtain ⟨hblocked, hlost⟩ := killed_without_runtime (waits_reachable hwaits)
  obtain ⟨hint, hterm⟩ := hblocked 0 _ rfl () rfl
  exact ⟨_, hint, hterm, hlost _ _ hlater rfl rfl⟩

/-- The wait finds the signal. -/
theorem asked_wait_cancelled_signal :
    ∃ s : Process Unit, (∀ s', ¬ (runtimeMachine Unit).step s (.polled () .timeout) s') ∧
      ∃ s', (runtimeMachine Unit).Run s [.polled () .ready, .read ()] s' ∧
        s'.calls () = .returned .cancelled none := by
  have hs : Machine.exec next start waits = some _ := rfl
  exact ⟨_, asked_wait_cancelled (waits_reachable hs) rfl rfl
    (Process.AskedBy.asked (a := .signal SIGTERM) ⟨rfl, rfl⟩)⟩

/-- The wait returns; then both a request and a signal ask the process to stop. -/
def asking : List (Event Unit) :=
  [.polled () .ready, .read (), .done (), .requestStop () (some 0), .done (), .kill SIGTERM]

/-- Two waits. -/
def answering : List (Event Unit) :=
  [.wait () (some 0) 500, .polled () .ready, .read (), .done (), .wait () (some 0) 500,
    .polled () .ready, .read ()]

/-- The process before them. -/
def askedTwice : Option (Process Unit) :=
  (Machine.exec next start waits).bind fun s => Machine.exec next s asking

theorem asking_reachable {s : Process Unit} (hs : askedTwice = some s) :
    (runtimeMachine Unit).Reachable s := by
  have hwaits : Machine.exec next start waits = some _ := rfl
  rw [askedTwice, hwaits, Option.bind_some] at hs
  refine (waits_reachable hwaits).run (Machine.Run.of_exec_along hs ?_)
  refine .cons trivial rfl (.cons trivial rfl (.cons trivial rfl ?_))
  exact ⟨⟨_, rfl, rfl⟩, fun t _ => ⟨trivial, fun t _ => ⟨trivial, fun t _ => trivial⟩⟩⟩

theorem answering_run {s s' : Process Unit} (hs : askedTwice = some s)
    (hs' : Machine.exec next s answering = some s') :
    (runtimeMachine Unit).Run s answering s' := by
  have htwice : askedTwice = some _ := rfl
  obtain rfl := Option.some.inj (hs.symm.trans htwice)
  apply Machine.Run.of_exec_along hs'
  refine .cons ⟨_, rfl, rfl⟩ rfl (.cons trivial rfl (.cons trivial rfl (.cons trivial rfl ?_)))
  exact ⟨⟨_, rfl, rfl⟩, fun t _ => ⟨trivial, fun t _ => ⟨trivial, fun t _ => trivial⟩⟩⟩

/-- Each of the two has a wait of its own. -/
theorem stop_not_lost_twice :
    ∃ s : Process Unit, askedTwice = some s ∧
      ∀ a ∈ [Asker.signal SIGTERM, .counter 4], ∃ pre e post u v, answering = pre ++ e :: post ∧
        (runtimeMachine Unit).Run s pre u ∧ u.AskedBy a ∧ (runtimeMachine Unit).step u e v ∧
        Taken u a e v := by
  have hs : askedTwice = some _ := rfl
  have hs' : (askedTwice.bind fun s => Machine.exec next s answering) = some _ := rfl
  rw [hs, Option.bind_some] at hs'
  have hrun := answering_run hs hs'
  obtain ⟨-, -, hlost⟩ := stop_not_lost (asking_reachable hs)
  refine ⟨_, hs, fun a ha => ?_⟩
  rcases List.mem_pair.mp ha with rfl | rfl
  · refine hlost _ answering _ ⟨rfl, rfl⟩ hrun ?_
    rintro ⟨-, hpending⟩
    cases hpending
  · refine hlost _ answering _ ⟨0, rfl⟩ hrun ?_
    rintro ⟨value, hfd⟩
    cases hfd

end Runtime
end AppCore
