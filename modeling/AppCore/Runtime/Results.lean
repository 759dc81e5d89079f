/-
  AppCore.Runtime.Results

  The account of the waits that return `SYS_ERR_CANCELLED`, over whole runs: there are never
  more of them than signals and accepted stop requests.
-/

import AppCore.Runtime.Stop

namespace AppCore
namespace Runtime

variable {T : Type*} {s s' : Process T} {e : Event T}
  {p : List (Process T × Event T × Process T)}

/-- `sys_runtime_wait` returns `SYS_ERR_CANCELLED`. -/
def cancels (x : Process T × Event T × Process T) : Bool :=
  match x.2.1.waits with
  | some t => x.2.2.calls t = .returned .cancelled none
  | none => false

/-- Somebody sends one of the two signals, or a stop request is accepted. -/
def asks (x : Process T × Event T × Process T) : Bool :=
  match x.2.1 with
  | .kill sig => signalMask sig
  | .requestStop t (some _) => x.2.2.calls t = .returned .ok none
  | _ => false

/-- The pending signals of the two. -/
def Process.signals (s : Process T) : Nat :=
  (s.pending SIGINT).toNat + (s.pending SIGTERM).toNat

/-- The counter of the runtime is not zero. -/
def Process.Counting (s : Process T) : Prop :=
  ∃ fd value, s.files fd = some (.stop (value + 1))

/-- Every result that has been returned, and every one that a wait would return, has been
    asked for. -/
structure Backed (p : List (Process T × Event T × Process T)) (s : Process T) : Prop where
  signals : p.countP cancels + s.signals ≤ p.countP asks
  counting : s.Counting → p.countP cancels + s.signals + 1 ≤ p.countP asks

/-- A step that returns nothing and takes nothing away. -/
theorem Backed.keep (h : Backed p s) (hcancels : cancels (s, e, s') = false)
    (hsignals : s'.signals ≤ s.signals) (hcounting : s'.Counting → s.Counting) :
    Backed (p ++ [(s, e, s')]) s' := by
  have hasks : p.countP asks ≤ (p ++ [(s, e, s')]).countP asks := by
    rw [List.countP_append]
    exact Nat.le_add_right _ _
  have hsame : (p ++ [(s, e, s')]).countP cancels = p.countP cancels := by
    rw [List.countP_append, List.countP_singleton, hcancels]
    rfl
  refine ⟨?_, fun h' => ?_⟩
  · have hle := h.signals
    omega
  · have hle := h.counting (hcounting h')
    omega

/-- Somebody asks for one more result. -/
theorem Backed.ask (h : Backed p s) (hcancels : cancels (s, e, s') = false)
    (hasks : asks (s, e, s') = true)
    (hmore : s'.signals ≤ s.signals ∨ s'.signals ≤ s.signals + 1 ∧ (s'.Counting → s.Counting)) :
    Backed (p ++ [(s, e, s')]) s' := by
  have hone : (p ++ [(s, e, s')]).countP asks = p.countP asks + 1 := by
    rw [List.countP_append, List.countP_singleton, hasks]
    rfl
  have hsame : (p ++ [(s, e, s')]).countP cancels = p.countP cancels := by
    rw [List.countP_append, List.countP_singleton, hcancels]
    rfl
  have hle := h.signals
  refine ⟨?_, fun h' => ?_⟩
  · omega
  · rcases hmore with hless | ⟨hless, hcounting⟩
    · omega
    · have hmore := h.counting (hcounting h')
      omega

/-- A wait returns what has been asked for. -/
theorem Backed.cancel (h : Backed p s)
    (hback : s'.signals + 1 ≤ s.signals ∧ (s'.Counting → s.Counting) ∨
      s.Counting ∧ s'.signals ≤ s.signals ∧ ¬ s'.Counting) :
    Backed (p ++ [(s, e, s')]) s' := by
  have hasks : p.countP asks ≤ (p ++ [(s, e, s')]).countP asks := by
    rw [List.countP_append]
    exact Nat.le_add_right _ _
  have hone : (p ++ [(s, e, s')]).countP cancels ≤ p.countP cancels + 1 := by
    rw [List.countP_append, List.countP_singleton]
    split <;> omega
  have hle := h.signals
  rcases hback with ⟨hless, hcounting⟩ | ⟨hbefore, hless, hafter⟩
  · refine ⟨by omega, fun h' => ?_⟩
    have hmore := h.counting (hcounting h')
    omega
  · have hmore := h.counting hbefore
    exact ⟨by omega, fun h' => absurd h' hafter⟩

theorem cancels_of_waits (h : e.waits = none) : cancels (s, e, s') = false := by
  simp only [cancels, h]

theorem signals_le {set set' : SigSet} (h : ∀ sig, set' sig = true → set sig = true) :
    (set' SIGINT).toNat + (set' SIGTERM).toNat ≤ (set SIGINT).toNat + (set SIGTERM).toNat := by
  have hle : ∀ sig, (set' sig).toNat ≤ (set sig).toNat := by
    intro sig
    cases h' : set' sig with
    | false => exact Nat.zero_le _
    | true => exact Nat.le_of_eq (congrArg Bool.toNat (h sig h')).symm
  exact Nat.add_le_add (hle SIGINT) (hle SIGTERM)

/-- A signal that is taken. -/
theorem signals_take {set : SigSet} {sig : Nat} (hset : set sig = true)
    (hsig : signalMask sig = true) :
    (Function.update set sig false SIGINT).toNat + (Function.update set sig false SIGTERM).toNat +
      1 ≤ (set SIGINT).toNat + (set SIGTERM).toNat := by
  have hne : SIGTERM ≠ SIGINT := by decide
  have htaken : (Function.update set sig false sig).toNat = 0 := by simp
  have hpending : (set sig).toNat = 1 := by simp [hset]
  rcases signalMask_cases hsig with rfl | rfl
  · have hother : (Function.update set SIGINT false SIGTERM).toNat = (set SIGTERM).toNat :=
      congrArg Bool.toNat (Function.update_of_ne hne ..)
    omega
  · have hother : (Function.update set SIGTERM false SIGINT).toNat = (set SIGINT).toNat :=
      congrArg Bool.toNat (Function.update_of_ne hne.symm ..)
    omega

/-- A signal that is sent. -/
theorem signals_send (set : SigSet) (sig : Nat) :
    (Function.update set sig true SIGINT).toNat + (Function.update set sig true SIGTERM).toNat ≤
      (set SIGINT).toNat + (set SIGTERM).toNat + (signalMask sig).toNat := by
  have hne : SIGTERM ≠ SIGINT := by decide
  by_cases hsig : signalMask sig = true
  · have hone : (signalMask sig).toNat = 1 := by rw [hsig, Bool.toNat_true]
    rcases signalMask_cases hsig with rfl | rfl
    · rw [Function.update_self, Function.update_of_ne hne, hone, Bool.toNat_true]
      omega
    · rw [Function.update_self, Function.update_of_ne hne.symm, hone, Bool.toNat_true]
      omega
  · have hint : SIGINT ≠ sig := by
      rintro rfl
      exact hsig (by decide)
    have hterm : SIGTERM ≠ sig := by
      rintro rfl
      exact hsig (by decide)
    rw [Function.update_of_ne hint, Function.update_of_ne hterm]
    omega

variable [DecidableEq T]

/-- `poll` does not fail with `ECANCELED`. -/
theorem cancels_call {t : T} {st : CallState} (hcontract : Contract s e)
    (h : ∀ t', e.waits = some t' →
      t' = t ∧ (st = .returned .cancelled none → e = .polled t (.error ECANCELED))) :
    cancels (s, e, s.setCall t st) = false := by
  cases hwaits : e.waits with
  | none => exact cancels_of_waits hwaits
  | some t' =>
      obtain ⟨rfl, hpolled⟩ := h t' hwaits
      simp only [cancels, hwaits]
      apply decide_eq_false
      intro hresult
      have hst : st = .returned .cancelled none := by
        have hself : (s.setCall t' st).calls t' = st := Function.update_self ..
        exact hself.symm.trans hresult
      obtain rfl := hpolled hst
      have hmem : ECANCELED ∈ pollErrno := hcontract
      exact absurd hmem (by decide)

theorem step_backed (h : RuntimeStep s e s') (hcontract : Contract s e) (hsound : s.Sound)
    (hs : Backed p s) : Backed (p ++ [(s, e, s')]) s' := by
  have hopen : ∀ {fd : Nat} {f : Option File}, (∀ value, f ≠ some (.stop (value + 1))) →
      (∃ fd' value, Function.update s.files fd f fd' = some (.stop (value + 1))) →
        s.Counting := by
    rintro fd f hf ⟨fd', value, hfd'⟩
    rw [Function.update_apply] at hfd'
    split at hfd'
    · exact absurd hfd' (hf value)
    · exact ⟨fd', value, hfd'⟩
  cases h with
  | call _ _ _ hwaits => exact hs.keep (cancels_call hcontract hwaits) (Nat.le_refl _) id
  | created _ _ => exact hs.keep rfl (Nat.le_refl _) id
  | signalFailed _ => exact hs.keep rfl (Nat.le_refl _) id
  | signalOpened _ _ _ => exact hs.keep rfl (Nat.le_refl _) (hopen (by simp))
  | stopFailed _ => exact hs.keep rfl (Nat.le_refl _) id
  | stopOpened _ _ _ => exact hs.keep rfl (Nat.le_refl _) (hopen (by simp))
  | @signalClosed t r creating ret errno x _ _ =>
      cases x.signalFd with
      | none => exact hs.keep rfl (Nat.le_refl _) id
      | some fd => exact hs.keep rfl (Nat.le_refl _) (hopen (by simp))
  | @stopClosed t r creating ret ret' errno x _ _ =>
      cases x.stopFd with
      | none => exact hs.keep rfl (Nat.le_refl _) id
      | some fd => exact hs.keep rfl (Nat.le_refl _) (hopen (by simp))
  | restored _ _ =>
      split
      · exact hs.keep rfl (Nat.le_refl _) id
      · exact hs.keep rfl (Nat.le_refl _) id
  | destroyed _ _ _ => exact hs.keep rfl (Nat.le_refl _) id
  | readSignal _ hpending hsig => exact hs.cancel (Or.inl ⟨signals_take hpending hsig, id⟩)
  | @readStop t r x fd value hc hx hfd hfile hpos =>
      obtain ⟨value', hpresent⟩ := hsound.present hx
      have hst : (CallState.returned .cancelled none).stage = s.stageOf t :=
        (congrArg CallState.stage hc).symm
      obtain ⟨-, hafter⟩ := counter_present hpresent 0 hfd hfile hst
      refine hs.cancel (Or.inr ⟨⟨fd, value - 1, ?_⟩, Nat.le_refl _, ?_⟩)
      · rw [hfile, Nat.sub_add_cancel hpos]
      · rintro ⟨fd', value'', hfd'⟩
        have hfiles := hafter.files fd'
        rw [hfd', SysRuntime.files] at hfiles
        split at hfiles
        · cases hfiles
        · obtain ⟨-, hvalue⟩ := Option.ite_none_right_eq_some.mp hfiles.symm
          cases hvalue
  | requested _ _ _ _ =>
      exact hs.ask rfl (by simp [asks, Process.setCall]) (Or.inl (Nat.le_refl _))
  | @sent sig =>
      by_cases hsig : signalMask sig = true
      · refine hs.ask rfl hsig (Or.inr ⟨?_, id⟩)
        have hle := signals_send s.pending sig
        rwa [hsig] at hle
      · refine hs.keep rfl ?_ id
        have hle := signals_send s.pending sig
        rwa [Bool.eq_false_iff.mpr hsig] at hle
  | delivered _ _ =>
      refine hs.keep rfl (signals_le ?_) id
      intro sig (hsig : Function.update s.pending _ false sig = true)
      rw [Function.update_apply] at hsig
      split at hsig
      · cases hsig
      · exact hsig
  | spawned _ _ => exact hs.keep rfl (Nat.le_refl _) id
  | exited _ => exact hs.keep rfl (Nat.le_refl _) id

/-- In every run, `sys_runtime_wait` has returned `SYS_ERR_CANCELLED` no more often than
    somebody has sent one of the two signals or `sys_runtime_request_stop` has succeeded. -/
theorem cancelled_was_asked (h : (runtimeMachine T).Path p s) :
    p.countP cancels ≤ p.countP asks := by
  have hbacked : Backed p s := by
    apply h.invariant (I := fun p s => Backed p s)
    · intro s hfresh
      have hsignals : s.signals = 0 := by
        rw [Process.signals, hfresh.pending]
        rfl
      refine ⟨?_, ?_⟩
      · rw [hsignals]
        exact Nat.zero_le _
      rintro ⟨fd, value, hfd⟩
      rw [hfresh.files] at hfd
      cases hfd
    · intro p s e s' hpath hs hstep
      have hsound := (sound_of_reachable hpath.reachable).1
      exact step_backed (next_cases hstep.1).2 hstep.2 hsound hs
  have hle := hbacked.signals
  omega

/-- The account of a run with one signal and one result. -/
theorem cancelled_was_asked_signal :
    ∃ p : List (Process Unit × Event Unit × Process Unit),
      p.map (fun x => x.2.1) = waits ++ ends ∧ p.countP cancels ≤ p.countP asks := by
  have hs' : afterEnds = some _ := rfl
  obtain ⟨s, hs, hrun⟩ := ends_run hs'
  obtain ⟨p, hp, hes⟩ := ((waits_run hs).append hrun).exists_path start_fresh
  exact ⟨p, hes, cancelled_was_asked hp⟩

/-! ## What is left behind -/

/-- The mask that a thread has without its runtime. -/
def Process.OwnMask (s : Process T) (t : T) (mask : SigSet) : Prop :=
  (∃ r x, s.runtimes r = some x ∧ x.owner = t ∧ mask = x.previousMask) ∨
    (∀ r x, s.runtimes r = some x → x.owner ≠ t) ∧ mask = s.masks t

omit [DecidableEq T] in
theorem Process.OwnMask.congr {t : T} {mask : SigSet} (h : s.OwnMask t mask)
    (hruntimes : s'.runtimes = s.runtimes) (hmasks : s'.masks t = s.masks t) :
    s'.OwnMask t mask := by
  unfold Process.OwnMask
  rw [hruntimes, hmasks]
  exact h

/-- The runtime of a process gets a descriptor. -/
theorem Process.OwnMask.open {t t' : T} {mask : SigSet} {r fd : Nat} {x x' : SysRuntime T}
    {st : CallState} {f : File} (h : s.OwnMask t mask) (hx : s.runtimes r = some x)
    (hx' : x'.owner = x.owner ∧ x'.previousMask = x.previousMask) :
    (((s.setFile fd (some f)).setRuntime r (some x')).setCall t' st).OwnMask t mask := by
  have hruntimes : ∀ r₁, (((s.setFile fd (some f)).setRuntime r (some x')).setCall t' st).runtimes
      r₁ = if r₁ = r then some x' else s.runtimes r₁ := fun r₁ => Function.update_apply ..
  rcases h with ⟨r₁, x₁, hx₁, howner, hmask⟩ | ⟨hnone, hmask⟩
  · by_cases hr : r₁ = r
    · subst hr
      obtain rfl := Option.some.inj (hx.symm.trans hx₁)
      exact Or.inl ⟨r₁, x', (hruntimes r₁).trans (if_pos rfl), hx'.1.trans howner,
        hmask.trans hx'.2.symm⟩
    · exact Or.inl ⟨r₁, x₁, (hruntimes r₁).trans ((if_neg hr).trans hx₁), howner, hmask⟩
  · refine Or.inr ⟨fun r₁ x₁ hx₁ => ?_, hmask⟩
    rw [hruntimes] at hx₁
    split at hx₁
    · obtain rfl := Option.some.inj hx₁
      rw [hx'.1]
      exact hnone r x hx
    · exact hnone r₁ x₁ hx₁

/-- The mask that the creator of a runtime had is in the runtime. -/
theorem created_ownMask {t t₀ : T} {mask : SigSet} {r : Nat}
    (hnone : ∀ r, s.runtimes r = none) (hs : s.OwnMask t mask) :
    (((s.setRuntime r (some { previousMask := s.masks t₀, owner := t₀ })).setMask t₀
      ((s.masks t₀).block signalMask)).setCall t₀ (.opening r)).OwnMask t mask := by
  rcases hs with ⟨r₁, x₁, hx₁, -⟩ | ⟨-, hmask⟩
  · rw [hnone] at hx₁
    cases hx₁
  · by_cases ht : t₀ = t
    · subst ht
      exact Or.inl ⟨r, _, Function.update_self .., rfl, hmask⟩
    · refine Or.inr ⟨fun r₁ x₁ hx₁ => ?_, hmask.trans (Function.update_of_ne (Ne.symm ht) ..).symm⟩
      have hx₁ : Function.update s.runtimes r _ r₁ = some x₁ := hx₁
      rw [Function.update_apply, hnone] at hx₁
      obtain ⟨-, hx₁⟩ := Option.ite_none_right_eq_some.mp hx₁
      rw [← Option.some.inj hx₁]
      exact ht

/-- It gets it back with the end of the runtime. -/
theorem restored_ownMask {t : T} {mask : SigSet} {r value : Nat} {x : SysRuntime T}
    {st : CallState} (hpresent : s.Present r x value) (hs : s.OwnMask t mask) :
    (((s.setMask x.owner x.previousMask).setRuntime r none).setCall x.owner st).OwnMask t mask := by
  have hnone : ∀ r₁, Function.update s.runtimes r none r₁ = none := by
    intro r₁
    rw [Function.update_apply, hpresent.runtimes]
    split <;> rfl
  refine Or.inr ⟨fun r₁ x₁ hx₁ => ?_, ?_⟩
  · have hx₁ : Function.update s.runtimes r none r₁ = some x₁ := hx₁
    rw [hnone] at hx₁
    cases hx₁
  · show mask = Function.update s.masks x.owner x.previousMask t
    rcases hs with ⟨r₁, x₁, hx₁, howner, hmask⟩ | ⟨hother, hmask⟩
    · rw [hpresent.runtimes] at hx₁
      obtain ⟨-, hx₁⟩ := Option.ite_none_right_eq_some.mp hx₁
      obtain rfl := Option.some.inj hx₁
      rw [← howner, Function.update_self]
      exact hmask
    · have hne := hother r x hpresent.runtimes_self
      rw [Function.update_of_ne hne.symm]
      exact hmask

theorem step_ownMask {t : T} {mask : SigSet} (h : RuntimeStep s e s') (hcontract : Contract s e)
    (hsound : s.Sound) (hspawn : ∀ t', e ≠ .spawn t' t) (hs : s.OwnMask t mask) :
    s'.OwnMask t mask := by
  cases h with
  | call _ _ _ _ => exact hs.congr rfl rfl
  | created _ _ => exact created_ownMask hcontract.2.1 hs
  | signalFailed _ => exact hs.congr rfl rfl
  | signalOpened _ hx _ => exact hs.open hx ⟨rfl, rfl⟩
  | stopFailed _ => exact hs.congr rfl rfl
  | stopOpened _ hx _ => exact hs.open hx ⟨rfl, rfl⟩
  | @signalClosed t r creating ret errno x _ _ =>
      cases x.signalFd <;> exact hs.congr rfl rfl
  | @stopClosed t r creating ret ret' errno x _ _ =>
      cases x.stopFd <;> exact hs.congr rfl rfl
  | @restored t₀ r creating ret ret' maskRet x hc hx =>
      have hstage : (s.calls t₀).stage = .restoring r := congrArg CallState.stage hc
      obtain ⟨value, hpresent, rfl⟩ := hsound.presentOf hx (by rw [hstage]; simp)
      have hmaskRet : maskRet = 0 := hcontract
      rw [if_pos hmaskRet]
      exact restored_ownMask hpresent hs
  | destroyed _ _ _ => exact hs.congr rfl rfl
  | readSignal _ _ _ => exact hs.congr rfl rfl
  | readStop _ _ _ _ _ => exact hs.congr rfl rfl
  | requested _ _ _ _ => exact hs.congr rfl rfl
  | sent => exact hs.congr rfl rfl
  | delivered _ _ => exact hs.congr rfl rfl
  | @spawned t₀ t' _ _ =>
      have hne : t ≠ t' := by
        rintro rfl
        exact hspawn t₀ rfl
      exact hs.congr rfl (Function.update_of_ne hne ..)
  | exited _ => exact hs.congr rfl rfl

/-- A runtime leaves nothing behind, however it ends: between two moments at which a process
    has none, each thread's mask is the same, and no descriptor is open.  Creations that fail
    halfway count, with whatever `close` returns. -/
theorem runtime_leaves_nothing {es : List (Event T)} (h : (runtimeMachine T).Run s es s')
    (hs : (runtimeMachine T).Reachable s) (hnone : ∀ r, s.runtimes r = none)
    (hnone' : ∀ r, s'.runtimes r = none) :
    (∀ fd, s'.files fd = none) ∧
      ∀ t, (∀ t', .spawn t' t ∉ es) → s'.masks t = s.masks t := by
  constructor
  · rcases (sound_of_reachable (hs.run h)).1 with habsent | ⟨r, x, value, hpresent⟩
    · exact habsent.files
    · have hr := hpresent.runtimes_self
      rw [hnone'] at hr
      cases hr
  · intro t hspawn
    have hown : (∀ t', .spawn t' t ∉ es) → s'.OwnMask t (s.masks t) := by
      apply h.history (R := fun es u => (∀ t', .spawn t' t ∉ es) → u.OwnMask t (s.masks t))
      · exact fun _ => Or.inr ⟨fun r x hx => absurd hx (by rw [hnone]; simp), rfl⟩
      · intro es u e v hrun hu hstep hnot
        refine step_ownMask (next_cases hstep.1).2 hstep.2 (sound_of_reachable (hs.run hrun)).1 ?_
          (hu fun t' hmem => hnot t' (List.mem_append_left _ hmem))
        rintro t' rfl
        exact hnot t' (List.mem_append_right _ (List.mem_singleton_self _))
    rcases hown hspawn with ⟨r, x, hx, -⟩ | ⟨-, hmask⟩
    · rw [hnone'] at hx
      cases hx
    · exact hmask.symm

/-- The process after one runtime. -/
theorem runtime_leaves_nothing_signal :
    ∃ s : Process Unit, (∀ fd, s.files fd = none) ∧
      ∀ t, (∀ t', Event.spawn t' t ∉ waits ++ ends) → s.masks t = start.masks t := by
  have hs' : afterEnds = some _ := rfl
  obtain ⟨s, hs, hrun⟩ := ends_run hs'
  have hreach : (runtimeMachine Unit).Reachable start := ⟨start, [], start_fresh, .nil⟩
  exact ⟨_, runtime_leaves_nothing ((waits_run hs).append hrun) hreach (fun _ => rfl)
    (ends_none hs')⟩

end Runtime
end AppCore
