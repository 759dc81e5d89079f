/-
  AppCore.Runtime.System

  The steps of the runtime one by one, what its users owe, and the states that a process can
  be in: without a runtime, or with one that has all the descriptors its call has opened.
-/

import AppCore.Runtime.Model

namespace AppCore
namespace Runtime

variable {T : Type*} [DecidableEq T] {s s' : Process T}

/-! ## The steps, one by one -/

/-- How far a call is that makes a runtime or destroys it. -/
inductive Stage where
  | none
  | opening (r : Nat)
  | openingStop (r : Nat)
  | closing (r : Nat)
  | closingStop (r : Nat)
  | restoring (r : Nat)
deriving DecidableEq, Repr

def CallState.stage : CallState → Stage
  | .opening r => .opening r
  | .openingStop r _ => .openingStop r
  | .closing r _ => .closing r
  | .closingStop r _ _ => .closingStop r
  | .restoring r _ _ => .restoring r
  | _ => .none

/-- The runtime that a wait uses. -/
def CallState.waitsOn : CallState → Option Nat
  | .polling r _ => some r
  | .readingSignal r => some r
  | .readingStop r => some r
  | _ => none

/-- The thread whose `sys_runtime_wait` goes on. -/
def Event.waits : Event T → Option T
  | .polled t _ => some t
  | .read t => some t
  | _ => none

/-- The steps, one by one, with what each finds. -/
inductive RuntimeStep (s : Process T) : Event T → Process T → Prop
  /-- A call goes on, and nothing else. -/
  | call {e t st} : (s.calls t).stage = .none → st.stage = .none →
      (∀ r, st.waitsOn = some r →
        (s.calls t).waitsOn = some r ∨ ∃ timeoutMs, e = .wait t (some r) timeoutMs) →
      (∀ t', e.waits = some t' →
        t' = t ∧ (st = .returned .cancelled none → e = .polled t (.error ECANCELED))) →
      RuntimeStep s e (s.setCall t st)
  | created {t r} : s.Free t → s.runtimes r = none →
      RuntimeStep s (.create t true (some r) 0)
        (((s.setRuntime r (some { previousMask := s.masks t, owner := t })).setMask t
          ((s.masks t).block signalMask)).setCall t (.opening r))
  | signalFailed {t r errno} : s.calls t = .opening r →
      RuntimeStep s (.opened t (.error errno)) (s.setCall t (.openingStop r errno))
  | signalOpened {t r fd x} : s.calls t = .opening r → s.runtimes r = some x →
      s.files fd = none →
      RuntimeStep s (.opened t (.ok fd)) (((s.setFile fd (some .signal)).setRuntime r
        (some { x with signalFd := some fd })).setCall t (.openingStop r 0))
  | stopFailed {t r errno errno'} : s.calls t = .openingStop r errno →
      RuntimeStep s (.opened t (.error errno')) (s.setCall t (.closing r (some errno')))
  | stopOpened {t r errno fd x} : s.calls t = .openingStop r errno → s.runtimes r = some x →
      s.files fd = none →
      RuntimeStep s (.opened t (.ok fd)) (((s.setFile fd (some (.stop 0))).setRuntime r
        (some { x with stopFd := some fd })).setCall t
          (if x.signalFd = none then .closing r (some errno) else .returned .ok (some r)))
  | signalClosed {t r creating ret errno x} : s.calls t = .closing r creating →
      s.runtimes r = some x →
      RuntimeStep s (.closed t errno)
        ((s.close x.signalFd).setCall t (.closingStop r ret creating))
  | stopClosed {t r creating ret ret' errno x} : s.calls t = .closingStop r ret creating →
      s.runtimes r = some x →
      RuntimeStep s (.closed t errno) ((s.close x.stopFd).setCall t (.restoring r ret' creating))
  | restored {t r creating ret ret' maskRet x} : s.calls t = .restoring r ret creating →
      s.runtimes r = some x →
      RuntimeStep s (.restored t maskRet)
        (((if maskRet = 0 then s.setMask t x.previousMask else s).setRuntime r none).setCall t
          (.returned ret' none))
  | destroyed {t r x} : s.Free t → s.runtimes r = some x → x.owner = t →
      RuntimeStep s (.destroy t (some r)) (s.setCall t (.closing r none))
  | readSignal {t r sig} : s.calls t = .readingSignal r → s.pending sig = true →
      signalMask sig = true →
      RuntimeStep s (.read t)
        ({ s with pending := Function.update s.pending sig false }.setCall t
          (.returned .cancelled none))
  | readStop {t r x fd value} : s.calls t = .readingStop r → s.runtimes r = some x →
      x.stopFd = some fd → s.files fd = some (.stop value) → 0 < value →
      RuntimeStep s (.read t)
        ((s.setFile fd (some (.stop 0))).setCall t (.returned .cancelled none))
  | requested {t r x fd value} : s.Free t → s.runtimes r = some x → x.stopFd = some fd →
      s.files fd = some (.stop value) →
      RuntimeStep s (.requestStop t (some r))
        ((s.setFile fd (some (.stop (value + 1)))).setCall t (.returned .ok none))
  | sent {sig} :
      RuntimeStep s (.kill sig) { s with pending := Function.update s.pending sig true }
  | delivered {t sig} : s.live t = true → s.masks t sig = false →
      RuntimeStep s (.deliver t sig)
        { s with
          pending := Function.update s.pending sig false
          killed := signalMask sig }
  | spawned {t t'} : s.live t = true → s.live t' = false →
      RuntimeStep s (.spawn t t')
        ({ s with live := Function.update s.live t' true }.setMask t' (s.masks t))
  | exited {t} : s.Free t →
      RuntimeStep s (.exit t) { s with live := Function.update s.live t false }

section Cases

variable {t : T}

omit [DecidableEq T] in
theorem Process.Free.stage (h : s.Free t) : (s.calls t).stage = .none := by
  rw [h.2]
  rfl

/-- A call of `t` returns at once. -/
theorem RuntimeStep.answer {e : Event T} {ret : SysErr} {out : Option Nat} (h : s.Free t)
    (he : e.waits = none) : RuntimeStep s e (s.setCall t (.returned ret out)) := by
  refine .call h.stage rfl (fun r hr => by cases hr) fun t' hwaits => ?_
  rw [he] at hwaits
  cases hwaits

theorem create_cases {outRuntime : Bool} {memory : Option Nat} {ret : Int} (hfree : s.Free t)
    (h : sysRuntimeCreate s t outRuntime memory ret = some s') :
    RuntimeStep s (.create t outRuntime memory ret) s' := by
  unfold sysRuntimeCreate at h
  split at h
  · obtain rfl := Option.some.inj h
    exact .answer hfree rfl
  rename_i hout
  split at h
  · obtain rfl := Option.some.inj h
    exact .answer hfree rfl
  · rename_i r
    split at h
    · cases h
    · rename_i hnone
      split at h
      · obtain rfl := Option.some.inj h
        exact .answer hfree rfl
      · rename_i hret
        obtain rfl := Option.some.inj h
        obtain rfl := not_not.mp hret
        have htrue : outRuntime = true := by simpa using hout
        subst htrue
        exact .created hfree (not_not.mp hnone)

theorem open_cases {result : Except Int Nat} (h : openSection s t result = some s') :
    RuntimeStep s (.opened t result) s' := by
  unfold openSection at h
  split at h
  · rename_i r hc
    obtain ⟨x, hx, h⟩ := Option.bind_eq_some_iff.mp h
    split at h
    · obtain rfl := Option.some.inj h
      exact .signalFailed hc
    · split at h
      · cases h
      · rename_i hfd
        obtain rfl := Option.some.inj h
        exact .signalOpened hc hx (not_not.mp hfd)
  · rename_i r errno hc
    obtain ⟨x, hx, h⟩ := Option.bind_eq_some_iff.mp h
    split at h
    · obtain rfl := Option.some.inj h
      exact .stopFailed hc
    · split at h
      · cases h
      · rename_i hfd
        obtain rfl := Option.some.inj h
        exact .stopOpened hc hx (not_not.mp hfd)
  · cases h

theorem close_cases {errno : Int} (h : closeSection s t errno = some s') :
    RuntimeStep s (.closed t errno) s' := by
  unfold closeSection at h
  split at h
  · rename_i r creating hc
    obtain ⟨x, hx, rfl⟩ := Option.map_eq_some_iff.mp h
    exact .signalClosed hc hx
  · rename_i r ret creating hc
    obtain ⟨x, hx, rfl⟩ := Option.map_eq_some_iff.mp h
    exact .stopClosed hc hx
  · cases h

theorem restore_cases {maskRet : Int} (h : restoreSection s t maskRet = some s') :
    RuntimeStep s (.restored t maskRet) s' := by
  unfold restoreSection at h
  split at h
  · rename_i r ret creating hc
    obtain ⟨x, hx, rfl⟩ := Option.map_eq_some_iff.mp h
    exact .restored hc hx
  · cases h

theorem destroy_cases {runtime : Option Nat} (hfree : s.Free t)
    (h : sysRuntimeDestroy s t runtime = some s') :
    RuntimeStep s (.destroy t runtime) s' := by
  cases runtime with
  | none =>
      obtain rfl := Option.some.inj h
      exact .answer hfree rfl
  | some r =>
      obtain ⟨x, hx, h⟩ := Option.map_eq_some_iff.mp h
      split at h
      · obtain rfl := h
        exact .answer hfree rfl
      · rename_i howner
        obtain rfl := h
        exact .destroyed hfree hx (not_not.mp howner)

theorem pollError_eq_cancelled {errno : Int} (h : pollError errno = .cancelled) :
    errno = ECANCELED := by
  by_contra hne
  revert h
  unfold pollError sysErrorFromErrno
  rw [if_neg hne]
  repeat' apply ite_ne
  all_goals decide

theorem poll_cases {result : PollResult} (h : pollSection s t result = some s') :
    RuntimeStep s (.polled t result) s' := by
  unfold pollSection at h
  split at h
  · rename_i r timeoutMs hc
    obtain ⟨x, -, h⟩ := Option.bind_eq_some_iff.mp h
    have hstage : (s.calls t).stage = .none := by
      rw [hc]
      rfl
    -- `ECANCELED` of `poll` is the only other way to a cancelled wait
    have hreturn : ∀ {ret : SysErr}, ret ≠ .cancelled →
        RuntimeStep s (.polled t result) (s.setCall t (.returned ret none)) :=
      fun hne => .call hstage rfl (fun _ hr => by cases hr) fun t' ht' =>
        ⟨(Option.some.inj ht').symm, fun h => absurd (CallState.returned.inj h).1 hne⟩
    have hread : ∀ {st : CallState}, st.stage = .none → st.waitsOn = some r →
        st ≠ .returned .cancelled none → RuntimeStep s (.polled t result) (s.setCall t st) := by
      intro st hst hwaits hne
      refine .call hstage hst (fun r' hr' => Or.inl ?_) fun t' ht' =>
        ⟨(Option.some.inj ht').symm, fun h => absurd h hne⟩
      rw [hwaits] at hr'
      rw [hc]
      exact hr'
    dsimp only at h
    split at h
    · obtain rfl := Option.some.inj h
      refine .call hstage rfl (fun _ hr => by cases hr) fun t' ht' => ?_
      refine ⟨(Option.some.inj ht').symm, fun hcancelled => ?_⟩
      rw [pollError_eq_cancelled (CallState.returned.inj hcancelled).1]
    · split at h
      · obtain rfl := Option.some.inj h
        exact hreturn (by decide)
      · cases h
    · split at h
      · obtain rfl := Option.some.inj h
        exact hread rfl rfl (by simp)
      split at h
      · obtain rfl := Option.some.inj h
        exact hread rfl rfl (by simp)
      split at h
      · obtain rfl := Option.some.inj h
        exact hreturn (by decide)
      · cases h
  · cases h

theorem read_cases (h : readSection s t = some s') : RuntimeStep s (.read t) s' := by
  have hreturn : ∀ {ret : SysErr}, (s.calls t).stage = .none → ret ≠ .cancelled →
      RuntimeStep s (.read t) (s.setCall t (.returned ret none)) :=
    fun hstage hne => .call hstage rfl (fun _ hr => by cases hr) fun t' ht' =>
      ⟨(Option.some.inj ht').symm, fun h => absurd (CallState.returned.inj h).1 hne⟩
  unfold readSection at h
  split at h
  · rename_i r hc
    have hstage : (s.calls t).stage = .none := by
      rw [hc]
      rfl
    split at h
    · rename_i hpending
      obtain rfl := Option.some.inj h
      exact .readSignal hc hpending (by decide)
    split at h
    · rename_i hpending
      obtain rfl := Option.some.inj h
      exact .readSignal hc hpending (by decide)
    · obtain rfl := Option.some.inj h
      exact hreturn hstage (by decide)
  · rename_i r hc
    have hstage : (s.calls t).stage = .none := by
      rw [hc]
      rfl
    obtain ⟨x, hx, h⟩ := Option.bind_eq_some_iff.mp h
    obtain ⟨fd, hfd, h⟩ := Option.bind_eq_some_iff.mp h
    split at h
    · rename_i value hvalue
      split at h
      · rename_i hpos
        obtain rfl := Option.some.inj h
        exact .readStop hc hx hfd hvalue hpos
      · obtain rfl := Option.some.inj h
        exact hreturn hstage (by decide)
    · obtain rfl := Option.some.inj h
      exact hreturn hstage (by decide)
  · cases h

theorem request_cases {runtime : Option Nat} (hfree : s.Free t)
    (h : sysRuntimeRequestStop s t runtime = some s') :
    RuntimeStep s (.requestStop t runtime) s' := by
  cases runtime with
  | none =>
      obtain rfl := Option.some.inj h
      exact .answer hfree rfl
  | some r =>
      obtain ⟨x, hx, h⟩ := Option.map_eq_some_iff.mp h
      split at h
      · obtain rfl := h
        exact .answer hfree rfl
      · rename_i fd hfd
        split at h
        · rename_i value hvalue
          split at h
          · obtain rfl := h
            exact .requested hfree hx hfd hvalue
          · obtain rfl := h
            exact .answer hfree rfl
        · obtain rfl := h
          exact .answer hfree rfl

end Cases

/-- `next` does nothing else, and nothing at all once the process has been ended. -/
theorem next_cases {e : Event T} (h : next s e = some s') :
    s.killed = false ∧ RuntimeStep s e s' := by
  unfold next at h
  split at h
  · cases h
  rename_i hkilled
  refine ⟨by simpa using hkilled, ?_⟩
  cases e with
  | create t outRuntime memory ret =>
      obtain ⟨hfree, h⟩ := Option.ite_none_right_eq_some.mp h
      exact create_cases hfree h
  | opened t result => exact open_cases h
  | closed t errno => exact close_cases h
  | restored t ret => exact restore_cases h
  | destroy t runtime =>
      obtain ⟨hfree, h⟩ := Option.ite_none_right_eq_some.mp h
      exact destroy_cases hfree h
  | wait t runtime timeoutMs =>
      obtain ⟨hfree, h⟩ := Option.ite_none_right_eq_some.mp h
      split at h
      · obtain rfl := Option.some.inj h
        exact .answer hfree rfl
      · rename_i r
        obtain rfl := Option.some.inj h
        refine .call hfree.stage rfl (fun r' hr' => Or.inr ⟨timeoutMs, ?_⟩) fun t' hwaits => ?_
        · rw [Option.some.inj hr']
        · cases hwaits
  | polled t result => exact poll_cases h
  | read t => exact read_cases h
  | requestStop t runtime =>
      obtain ⟨hfree, h⟩ := Option.ite_none_right_eq_some.mp h
      exact request_cases hfree h
  | done t =>
      simp only [step] at h
      split at h
      · rename_i ret out hc
        obtain rfl := Option.some.inj h
        exact .call (by rw [hc]; rfl) rfl (fun r hr => by cases hr) fun _ hwaits => by cases hwaits
      · cases h
  | kill sig =>
      obtain rfl := Option.some.inj h
      exact .sent
  | deliver t sig =>
      obtain ⟨hdeliver, h⟩ := Option.ite_none_right_eq_some.mp h
      obtain rfl := Option.some.inj h
      exact .delivered hdeliver.1 hdeliver.2.2
  | spawn t t' =>
      obtain ⟨hspawn, h⟩ := Option.ite_none_right_eq_some.mp h
      obtain rfl := Option.some.inj h
      exact .spawned hspawn.1.1 hspawn.2
  | exit t =>
      obtain ⟨hfree, h⟩ := Option.ite_none_right_eq_some.mp h
      obtain rfl := Option.some.inj h
      exact .exited hfree

end Runtime
end AppCore
