/-
  AppCore.Runtime.Presence

  What its users owe to a runtime, and the two kinds of states that a process is in: without a
  runtime, or with one that has the descriptors which the call of its owner has opened and not
  closed yet, and whose two signals every thread blocks.
-/

import AppCore.Runtime.System

namespace AppCore
namespace Runtime

variable {T : Type*} [DecidableEq T] {s s' : Process T}

/-! ## What the users owe -/

/-- The errors of `poll`. -/
def pollErrno : List Int := [EINTR, EINVAL, ENOMEM]

/-- The stage of the call of a thread. -/
def Process.stageOf (s : Process T) (t : T) : Stage := (s.calls t).stage

/-- A handle that `sys_runtime_create` has returned and that nobody destroys. -/
def Process.Usable (s : Process T) (r : Nat) : Prop :=
  ∃ x, s.runtimes r = some x ∧ s.stageOf x.owner = .none

/-- A runtime is created before other threads are started, one for the process.  Nobody uses it
    while its owner destroys it, and the owner does so before it ends.  The masks that are set
    are valid ones, and `poll` fails with an error of its own. -/
def Contract (s : Process T) : Event T → Prop
  | .create t _ _ ret => (∀ t', s.live t' = true → t' = t) ∧ (∀ r, s.runtimes r = none) ∧ ret = 0
  | .restored _ ret => ret = 0
  | .destroy _ (some r) => s.Usable r ∧ ∀ t, (s.calls t).waitsOn ≠ some r
  | .wait _ (some r) _ => s.Usable r
  | .requestStop _ (some r) => s.Usable r
  | .exit t => ∀ r x, s.runtimes r = some x → x.owner ≠ t
  | .polled _ (.error errno) => errno ∈ pollErrno
  | _ => True

/-- A process before its first runtime, without a pending signal. -/
structure Process.Fresh (s : Process T) : Prop where
  pending : s.pending = fun _ => false
  files : s.files = fun _ => none
  runtimes : s.runtimes = fun _ => none
  calls : s.calls = fun _ => .idle
  killed : s.killed = false

/-- The process under all interleavings. -/
def runtimeMachine (T : Type*) [DecidableEq T] : Machine (Process T) (Event T) :=
  (Machine.ofNext Process.Fresh next).restrict fun s e _ => Contract s e

/-! ## The states -/

/-- The runtime that a call makes or destroys. -/
def Stage.runtime : Stage → Option Nat
  | .none => .none
  | .opening r => some r
  | .openingStop r => some r
  | .closing r => some r
  | .closingStop r => some r
  | .restoring r => some r

/-- Before the first `close`. -/
def Stage.signalOpen : Stage → Bool
  | .closingStop _ => false
  | .restoring _ => false
  | _ => true

/-- Before the second `close`. -/
def Stage.stopOpen : Stage → Bool
  | .restoring _ => false
  | _ => true

/-- The descriptors that the calls before a stage have opened. -/
def SysRuntime.Opened (x : SysRuntime T) : Stage → Prop
  | .none => (∃ fd, x.signalFd = some fd) ∧ ∃ fd, x.stopFd = some fd
  | .opening _ => x.signalFd = none ∧ x.stopFd = none
  | .openingStop _ => x.stopFd = none
  | _ => True

/-- The files of a runtime whose counter is `value`. -/
def SysRuntime.files (x : SysRuntime T) (stage : Stage) (value : Nat) (fd : Nat) : Option File :=
  if x.signalFd = some fd ∧ stage.signalOpen = true then some .signal
  else if x.stopFd = some fd ∧ stage.stopOpen = true then some (.stop value)
  else none

/-- There is no runtime, and nothing is left of one. -/
structure Process.Absent (s : Process T) : Prop where
  runtimes : ∀ r, s.runtimes r = none
  files : ∀ fd, s.files fd = none
  stages : ∀ t, s.stageOf t = .none

/-- The process has the runtime `r`, with `value` in its counter. -/
structure Process.Present (s : Process T) (r : Nat) (x : SysRuntime T) (value : Nat) : Prop where
  runtimes : ∀ r', s.runtimes r' = if r' = r then some x else none
  files : ∀ fd, s.files fd = x.files (s.stageOf x.owner) value fd
  others : ∀ t, t ≠ x.owner → s.stageOf t = .none
  stage : ∀ r', (s.stageOf x.owner).runtime = some r' → r' = r
  opened : x.Opened (s.stageOf x.owner)
  distinct : ∀ fd, x.signalFd = some fd → x.stopFd ≠ some fd
  alive : s.live x.owner = true
  blocked : ∀ t, s.live t = true → s.masks t SIGINT = true ∧ s.masks t SIGTERM = true
  mask : s.masks x.owner = x.previousMask.block signalMask

/-- Every state of a run. -/
def Process.Sound (s : Process T) : Prop := s.Absent ∨ ∃ r x value, s.Present r x value

omit [DecidableEq T] in
theorem Process.Fresh.absent (h : s.Fresh) : s.Absent where
  runtimes := fun r => congrFun h.runtimes r
  files := fun fd => congrFun h.files fd
  stages := fun t => by
    rw [Process.stageOf, h.calls]
    rfl

/-! ## What a step changes -/

section Changes

variable {r : Nat} {x : SysRuntime T} {value : Nat} {t : T}

omit [DecidableEq T] in
theorem Process.Absent.congr (h : s.Absent) (hruntimes : s'.runtimes = s.runtimes)
    (hfiles : s'.files = s.files) (hstages : s'.stageOf = s.stageOf) : s'.Absent where
  runtimes := fun r => by rw [hruntimes, h.runtimes]
  files := fun fd => by rw [hfiles, h.files]
  stages := fun t => by rw [hstages, h.stages]

omit [DecidableEq T] in
theorem Process.Present.congr (h : s.Present r x value) (hruntimes : s'.runtimes = s.runtimes)
    (hfiles : s'.files = s.files) (hstages : s'.stageOf = s.stageOf)
    (hmasks : s'.masks = s.masks) (hlive : s'.live = s.live) : s'.Present r x value := by
  obtain ⟨h1, h2, h3, h4, h5, h6, h7, h8, h9⟩ := h
  refine ⟨?_, ?_, ?_, ?_, ?_, h6, ?_, ?_, ?_⟩
  · rwa [hruntimes]
  · rwa [hfiles, hstages]
  · rwa [hstages]
  · rwa [hstages]
  · rwa [hstages]
  · rwa [hlive]
  · rwa [hmasks, hlive]
  · rwa [hmasks]

theorem stageOf_setCall (s : Process T) (t : T) (st : CallState) :
    (s.setCall t st).stageOf = Function.update s.stageOf t st.stage := by
  funext t'
  simp only [Process.stageOf, Process.setCall, Function.update_apply]
  split
  · rfl
  · rfl

/-- A call that keeps its stage. -/
theorem stageOf_setCall_of_eq {st : CallState} (h : st.stage = s.stageOf t) :
    (s.setCall t st).stageOf = s.stageOf := by
  rw [stageOf_setCall, h, Function.update_eq_self]

omit [DecidableEq T] in
/-- The runtime that a step finds is the one there is. -/
theorem Process.Sound.present (h : s.Sound) (hr : s.runtimes r = some x) :
    ∃ value, s.Present r x value := by
  rcases h with habsent | ⟨r', x', value, hpresent⟩
  · rw [habsent.runtimes] at hr
    cases hr
  · rw [hpresent.runtimes] at hr
    obtain ⟨rfl, hx⟩ := Option.ite_none_right_eq_some.mp hr
    obtain rfl := Option.some.inj hx
    exact ⟨value, hpresent⟩

/-- The owner of a runtime is the thread that makes or destroys it. -/
theorem Process.Present.owner (h : s.Present r x value) (hstage : s.stageOf t ≠ .none) :
    t = x.owner := by
  by_contra hne
  exact hstage (h.others t hne)

omit [DecidableEq T] in
theorem Process.Present.runtimes_self (h : s.Present r x value) : s.runtimes r = some x := by
  rw [h.runtimes, if_pos rfl]

/-- A call of the owner goes on, with other files. -/
theorem Process.Present.goOn (h : s.Present r x value) {x' : SysRuntime T} {value' : Nat}
    {st : CallState} {files : Nat → Option File}
    (hx' : x'.previousMask = x.previousMask ∧ x'.owner = x.owner)
    (hfiles : ∀ fd, files fd = x'.files st.stage value' fd)
    (hstage : ∀ r', st.stage.runtime = some r' → r' = r) (hopened : x'.Opened st.stage)
    (hdistinct : ∀ fd, x'.signalFd = some fd → x'.stopFd ≠ some fd)
    (hs' : s' = ({ s with files := files }.setRuntime r (some x')).setCall x.owner st) :
    s'.Present r x' value' := by
  obtain ⟨hmask, howner⟩ := hx'
  subst hs'
  refine ⟨?_, ?_, ?_, ?_, ?_, hdistinct, ?_, h.blocked, ?_⟩
  · intro r'
    show Function.update s.runtimes r (some x') r' = _
    rw [Function.update_apply, h.runtimes]
    split
    · rfl
    · rfl
  · intro fd
    rw [stageOf_setCall, howner, Function.update_self]
    exact hfiles fd
  · intro t ht
    rw [howner] at ht
    rw [stageOf_setCall, Function.update_of_ne ht]
    exact h.others t ht
  · rw [stageOf_setCall, howner, Function.update_self]
    exact hstage
  · rw [stageOf_setCall, howner, Function.update_self]
    exact hopened
  · rw [howner]
    exact h.alive
  · rw [howner, hmask]
    exact h.mask

/-- A call of the owner goes on, with the runtime as it is. -/
theorem Process.Present.move (h : s.Present r x value) {st : CallState}
    (hfiles : ∀ fd, s.files fd = x.files st.stage value fd)
    (hstage : ∀ r', st.stage.runtime = some r' → r' = r) (hopened : x.Opened st.stage) :
    (s.setCall x.owner st).Present r x value := by
  apply h.goOn ⟨rfl, rfl⟩ hfiles hstage hopened h.distinct
  have hsame : Function.update s.runtimes r (some x) = s.runtimes := by
    rw [← h.runtimes_self, Function.update_eq_self]
  simp only [Process.setCall, Process.setRuntime, hsame]

/-- A new runtime, of the only thread. -/
theorem Process.Absent.created (h : s.Absent) (hlive : s.live t = true)
    (hlone : ∀ t', s.live t' = true → t' = t) :
    (((s.setRuntime r (some { previousMask := s.masks t, owner := t })).setMask t
      ((s.masks t).block signalMask)).setCall t (.opening r)).Present r
        { previousMask := s.masks t, owner := t } 0 where
  runtimes := fun r' => by
    show Function.update s.runtimes r _ r' = _
    rw [Function.update_apply, h.runtimes]
  files := fun fd => h.files fd
  others := fun t' ht' => by
    rw [stageOf_setCall, Function.update_of_ne ht']
    exact h.stages t'
  stage := fun r' hr' => by
    rw [stageOf_setCall, Function.update_self] at hr'
    exact (Option.some.inj hr').symm
  opened := by
    rw [stageOf_setCall, Function.update_self]
    exact ⟨rfl, rfl⟩
  distinct := fun fd hfd => by cases hfd
  alive := hlive
  blocked := fun t' ht' => by
    obtain rfl := hlone t' ht'
    show Function.update s.masks t' _ t' SIGINT = true ∧
      Function.update s.masks t' _ t' SIGTERM = true
    rw [Function.update_self]
    exact ⟨Bool.or_true _, Bool.or_true _⟩
  mask := Function.update_self ..

/-- The runtime is gone, with its files. -/
theorem Process.Present.restored (h : s.Present r x value)
    (hstage : s.stageOf x.owner = .restoring r) {st : CallState} (hst : st.stage = .none)
    {mask : SigSet} : (((s.setMask x.owner mask).setRuntime r none).setCall x.owner st).Absent where
  runtimes := fun r' => by
    show Function.update s.runtimes r none r' = _
    rw [Function.update_apply, h.runtimes]
    split
    · rfl
    · rfl
  files := fun fd => by
    have hfile := h.files fd
    rw [hstage] at hfile
    show s.files fd = none
    simpa [SysRuntime.files, Stage.signalOpen, Stage.stopOpen] using hfile
  stages := fun t => by
    rw [stageOf_setCall, Function.update_apply]
    split
    · exact hst
    · rename_i ht
      exact h.others t ht

end Changes

/-! ## The files at each stage -/

section Files

variable {x : SysRuntime T} {value value' fd fd' : Nat} {stage stage' : Stage}

omit [DecidableEq T] in
theorem files_signal (hsignal : x.signalFd = none) (hopen : stage'.signalOpen = true)
    (hstop : stage'.stopOpen = stage.stopOpen) :
    Function.update (x.files stage value) fd (some .signal) fd' =
      ({ x with signalFd := some fd } : SysRuntime T).files stage' value fd' := by
  grind [Function.update_apply, SysRuntime.files]

omit [DecidableEq T] in
theorem files_stop (hdistinct : x.signalFd ≠ some fd) (hnone : x.stopFd = none)
    (hopen : stage'.stopOpen = true) (hsignal : stage'.signalOpen = stage.signalOpen) :
    Function.update (x.files stage value) fd (some (.stop value')) fd' =
      ({ x with stopFd := some fd } : SysRuntime T).files stage' value' fd' := by
  grind [Function.update_apply, SysRuntime.files]

omit [DecidableEq T] in
/-- The counter changes. -/
theorem files_counter (hdistinct : x.signalFd ≠ some fd) (hfd : x.stopFd = some fd)
    (hopen : stage.stopOpen = true) :
    Function.update (x.files stage value) fd (some (.stop value')) fd' =
      x.files stage value' fd' := by
  grind [Function.update_apply, SysRuntime.files]

omit [DecidableEq T] in
theorem files_closeSignal (hfd : x.signalFd = some fd) (hdistinct : x.stopFd ≠ some fd)
    (hclosed : stage'.signalOpen = false) (hstop : stage'.stopOpen = stage.stopOpen) :
    Function.update (x.files stage value) fd none fd' = x.files stage' value fd' := by
  grind [Function.update_apply, SysRuntime.files]

omit [DecidableEq T] in
theorem files_closeStop (hfd : x.stopFd = some fd) (hdistinct : x.signalFd ≠ some fd)
    (hclosed : stage'.stopOpen = false) (hsignal : stage'.signalOpen = stage.signalOpen) :
    Function.update (x.files stage value) fd none fd' = x.files stage' value fd' := by
  grind [Function.update_apply, SysRuntime.files]

end Files

/-! ## Every run -/

section Steps

variable {r : Nat} {x : SysRuntime T} {value : Nat} {t : T}

omit [DecidableEq T] in
theorem Process.Present.files_eq (h : s.Present r x value) :
    s.files = x.files (s.stageOf x.owner) value := funext h.files

theorem signalFailed_present (h : s.Present r x value) (hstage : s.stageOf x.owner = .opening r)
    (errno : Int) : (s.setCall x.owner (.openingStop r errno)).Present r x value := by
  have hopened := h.opened
  rw [hstage] at hopened
  apply h.move
  · intro fd
    rw [h.files, hstage]
    rfl
  · intro r' hr'
    exact (Option.some.inj hr').symm
  · exact hopened.2

theorem signalOpened_present (h : s.Present r x value) (hstage : s.stageOf x.owner = .opening r)
    (fd : Nat) : (((s.setFile fd (some .signal)).setRuntime r
      (some { x with signalFd := some fd })).setCall x.owner (.openingStop r 0)).Present r
        { x with signalFd := some fd } value := by
  have hopened := h.opened
  rw [hstage] at hopened
  obtain ⟨hsignal, hstop⟩ := hopened
  refine h.goOn ?_ ?_ ?_ ?_ ?_ rfl
  · exact ⟨rfl, rfl⟩
  · intro fd'
    rw [h.files_eq, hstage]
    exact files_signal hsignal rfl rfl
  · intro r' hr'
    exact (Option.some.inj hr').symm
  · exact hstop
  · intro fd' _ hfd'
    rw [hstop] at hfd'
    cases hfd'

theorem stopFailed_present (h : s.Present r x value)
    (hstage : s.stageOf x.owner = .openingStop r) (errno : Int) :
    (s.setCall x.owner (.closing r (some errno))).Present r x value := by
  apply h.move
  · intro fd
    rw [h.files, hstage]
    rfl
  · intro r' hr'
    exact (Option.some.inj hr').symm
  · trivial

/-- Both calls have been made, and one of them may have failed. -/
theorem stopOpened_present (h : s.Present r x value)
    (hstage : s.stageOf x.owner = .openingStop r) {fd : Nat} (errno : Int)
    (hfd : s.files fd = none) :
    (((s.setFile fd (some (.stop 0))).setRuntime r (some { x with stopFd := some fd })).setCall
      x.owner (if x.signalFd = none then .closing r (some errno)
        else .returned .ok (some r))).Present r { x with stopFd := some fd } 0 := by
  have hstop : x.stopFd = none := by
    have hopened := h.opened
    rw [hstage] at hopened
    exact hopened
  have hdistinct : x.signalFd ≠ some fd := by
    intro hsignal
    rw [h.files, hstage, SysRuntime.files, if_pos ⟨hsignal, rfl⟩] at hfd
    cases hfd
  have hne : ∀ fd', x.signalFd = some fd' → some fd ≠ some fd' := by
    intro fd' hsignal hfd'
    exact hdistinct (hsignal.trans hfd'.symm)
  by_cases hsignal : x.signalFd = none
  · rw [if_pos hsignal]
    refine h.goOn ?_ ?_ ?_ ?_ hne rfl
    · exact ⟨rfl, rfl⟩
    · intro fd'
      rw [h.files_eq, hstage]
      exact files_stop hdistinct hstop rfl rfl
    · intro r' hr'
      exact (Option.some.inj hr').symm
    · trivial
  · rw [if_neg hsignal]
    refine h.goOn ?_ ?_ ?_ ?_ hne rfl
    · exact ⟨rfl, rfl⟩
    · intro fd'
      rw [h.files_eq, hstage]
      exact files_stop hdistinct hstop rfl rfl
    · intro r' hr'
      cases hr'
    · exact ⟨Option.ne_none_iff_exists'.mp hsignal, fd, rfl⟩

/-- A `close`, if there is a descriptor. -/
theorem closed_present (h : s.Present r x value) {fd : Option Nat} {st : CallState}
    (hnone : fd = none → ∀ fd', s.files fd' = x.files st.stage value fd')
    (hsome : ∀ n, fd = some n → ∀ fd',
      Function.update s.files n none fd' = x.files st.stage value fd')
    (hstage : ∀ r', st.stage.runtime = some r' → r' = r) (hopened : x.Opened st.stage) :
    ((s.close fd).setCall x.owner st).Present r x value := by
  cases fd with
  | none => exact h.move (hnone rfl) hstage hopened
  | some n =>
      refine h.goOn ⟨rfl, rfl⟩ (hsome n rfl) hstage hopened h.distinct ?_
      have hsame : Function.update s.runtimes r (some x) = s.runtimes := by
        rw [← h.runtimes_self, Function.update_eq_self]
      simp only [Process.close, Process.setFile, Process.setCall, Process.setRuntime, hsame]

theorem signalClosed_present (h : s.Present r x value) (hstage : s.stageOf x.owner = .closing r)
    (ret : SysErr) (creating : Option Int) :
    ((s.close x.signalFd).setCall x.owner (.closingStop r ret creating)).Present r x value := by
  apply closed_present h
  · intro hnone fd
    rw [h.files, hstage]
    simp only [SysRuntime.files, hnone]
    rfl
  · intro n hn fd
    rw [h.files_eq, hstage]
    exact files_closeSignal hn (h.distinct n hn) rfl rfl
  · intro r' hr'
    exact (Option.some.inj hr').symm
  · trivial

theorem stopClosed_present (h : s.Present r x value)
    (hstage : s.stageOf x.owner = .closingStop r) (ret : SysErr) (creating : Option Int) :
    ((s.close x.stopFd).setCall x.owner (.restoring r ret creating)).Present r x value := by
  apply closed_present h
  · intro hnone fd
    rw [h.files, hstage]
    simp only [SysRuntime.files, hnone]
    rfl
  · intro n hn fd
    rw [h.files_eq, hstage]
    exact files_closeStop hn (fun hsignal => h.distinct n hsignal hn) rfl rfl
  · intro r' hr'
    exact (Option.some.inj hr').symm
  · trivial

theorem destroyed_present (h : s.Present r x value) (hstage : s.stageOf x.owner = .none) :
    (s.setCall x.owner (.closing r none)).Present r x value := by
  apply h.move
  · intro fd
    rw [h.files, hstage]
    rfl
  · intro r' hr'
    exact (Option.some.inj hr').symm
  · trivial

/-- The counter of the runtime changes. -/
theorem counter_present (h : s.Present r x value) {fd value₀ : Nat} (value' : Nat)
    (hfd : x.stopFd = some fd) (hfile : s.files fd = some (.stop value₀)) {st : CallState}
    (hst : st.stage = s.stageOf t) :
    value₀ = value ∧ ((s.setFile fd (some (.stop value'))).setCall t st).Present r x value' := by
  have hdistinct : x.signalFd ≠ some fd := fun hsignal => h.distinct fd hsignal hfd
  rw [h.files, SysRuntime.files, if_neg (fun hsignal => hdistinct hsignal.1)] at hfile
  obtain ⟨⟨-, hopen⟩, hvalue⟩ := Option.ite_none_right_eq_some.mp hfile
  have hstages : ((s.setFile fd (some (.stop value'))).setCall t st).stageOf = s.stageOf :=
    stageOf_setCall_of_eq hst
  refine ⟨(File.stop.inj (Option.some.inj hvalue)).symm, ?_⟩
  refine ⟨h.runtimes, ?_, ?_, ?_, ?_, h.distinct, h.alive, h.blocked, h.mask⟩
  · intro fd'
    rw [hstages]
    show Function.update s.files fd (some (.stop value')) fd' = _
    rw [h.files_eq]
    exact files_counter hdistinct hfd hopen
  · rw [hstages]
    exact h.others
  · rw [hstages]
    exact h.stage
  · rw [hstages]
    exact h.opened

omit [DecidableEq T] in
/-- A step that changes neither a stage nor a descriptor, and no mask. -/
theorem Process.Sound.congr (h : s.Sound) (hruntimes : s'.runtimes = s.runtimes)
    (hfiles : s'.files = s.files) (hstages : s'.stageOf = s.stageOf)
    (hmasks : s'.masks = s.masks) (hlive : s'.live = s.live) : s'.Sound := by
  rcases h with habsent | ⟨r, x, value, hpresent⟩
  · exact Or.inl (habsent.congr hruntimes hfiles hstages)
  · exact Or.inr ⟨r, x, value, hpresent.congr hruntimes hfiles hstages hmasks hlive⟩

/-- The runtime of a call that makes or destroys it. -/
theorem Process.Sound.presentOf (h : s.Sound) (hr : s.runtimes r = some x)
    (hstage : (s.calls t).stage ≠ .none) : ∃ value, s.Present r x value ∧ t = x.owner := by
  obtain ⟨value, hpresent⟩ := h.present hr
  exact ⟨value, hpresent, hpresent.owner hstage⟩

/-- A call that makes or destroys a runtime has one. -/
theorem Process.Sound.exists_present (h : s.Sound) (hstage : (s.calls t).stage ≠ .none)
    (hr : (s.calls t).stage.runtime = some r) :
    ∃ x value, s.Present r x value ∧ t = x.owner := by
  rcases h with habsent | ⟨r', x, value, hpresent⟩
  · exact absurd (habsent.stages t) hstage
  · have howner := hpresent.owner hstage
    have hr' : (s.stageOf x.owner).runtime = some r := howner ▸ hr
    obtain rfl := hpresent.stage r hr'
    exact ⟨x, value, hpresent, howner⟩

/-- A new thread blocks what the one blocks that starts it. -/
theorem spawned_sound {t' : T} (h : s.Sound) (hlive : s.live t = true) (hnew : s.live t' = false) :
    ({ s with live := Function.update s.live t' true }.setMask t' (s.masks t)).Sound := by
  rcases h with habsent | ⟨r, x, value, hpresent⟩
  · exact Or.inl (habsent.congr rfl rfl rfl)
  have hne : x.owner ≠ t' := by
    rintro rfl
    rw [hpresent.alive] at hnew
    cases hnew
  refine Or.inr ⟨r, x, value, hpresent.runtimes, hpresent.files, hpresent.others,
    hpresent.stage, hpresent.opened, hpresent.distinct, ?_, ?_, ?_⟩
  · exact (Function.update_of_ne hne ..).trans hpresent.alive
  · intro t'' ht''
    show Function.update s.masks t' (s.masks t) t'' SIGINT = true ∧
      Function.update s.masks t' (s.masks t) t'' SIGTERM = true
    by_cases ht : t'' = t'
    · rw [ht, Function.update_self]
      exact hpresent.blocked t hlive
    · rw [Function.update_of_ne ht]
      exact hpresent.blocked t'' ((Function.update_of_ne ht ..).symm.trans ht'')
  · exact (Function.update_of_ne hne ..).trans hpresent.mask

theorem exited_sound (h : s.Sound) (howner : ∀ r x, s.runtimes r = some x → x.owner ≠ t) :
    ({ s with live := Function.update s.live t false } : Process T).Sound := by
  rcases h with habsent | ⟨r, x, value, hpresent⟩
  · exact Or.inl (habsent.congr rfl rfl rfl)
  have hne := howner r x hpresent.runtimes_self
  refine Or.inr ⟨r, x, value, hpresent.runtimes, hpresent.files, hpresent.others,
    hpresent.stage, hpresent.opened, hpresent.distinct, ?_, ?_, hpresent.mask⟩
  · exact (Function.update_of_ne hne ..).trans hpresent.alive
  · intro t' ht'
    by_cases ht : t' = t
    · have hfalse : Function.update s.live t false t' = true := ht'
      rw [ht, Function.update_self] at hfalse
      cases hfalse
    · exact hpresent.blocked t' ((Function.update_of_ne ht ..).symm.trans ht')

theorem step_sound {e : Event T} (h : RuntimeStep s e s') (hcontract : Contract s e)
    (hs : s.Sound) : s'.Sound := by
  cases h with
  | call hstage hst _ _ =>
      exact hs.congr rfl rfl (stageOf_setCall_of_eq (hst.trans hstage.symm)) rfl rfl
  | @created t r hfree hnone =>
      obtain ⟨hlone, hnone, -⟩ := hcontract
      rcases hs with habsent | ⟨r', x, value, hpresent⟩
      · exact Or.inr ⟨r, _, 0, habsent.created hfree.1 hlone⟩
      · have hr := hpresent.runtimes_self
        rw [hnone] at hr
        cases hr
  | @signalFailed t r errno hc =>
      have hstage : (s.calls t).stage = .opening r := congrArg CallState.stage hc
      obtain ⟨x, value, hpresent, rfl⟩ :=
        hs.exists_present (by rw [hstage]; simp) (by rw [hstage]; rfl)
      exact Or.inr ⟨r, x, value, signalFailed_present hpresent hstage errno⟩
  | @signalOpened t r fd x hc hx hfd =>
      have hstage : (s.calls t).stage = .opening r := congrArg CallState.stage hc
      obtain ⟨value, hpresent, rfl⟩ := hs.presentOf hx (by rw [hstage]; simp)
      exact Or.inr ⟨r, _, value, signalOpened_present hpresent hstage fd⟩
  | @stopFailed t r errno errno' hc =>
      have hstage : (s.calls t).stage = .openingStop r := congrArg CallState.stage hc
      obtain ⟨x, value, hpresent, rfl⟩ :=
        hs.exists_present (by rw [hstage]; simp) (by rw [hstage]; rfl)
      exact Or.inr ⟨r, x, value, stopFailed_present hpresent hstage errno'⟩
  | @stopOpened t r errno fd x hc hx hfd =>
      have hstage : (s.calls t).stage = .openingStop r := congrArg CallState.stage hc
      obtain ⟨value, hpresent, rfl⟩ := hs.presentOf hx (by rw [hstage]; simp)
      exact Or.inr ⟨r, _, 0, stopOpened_present hpresent hstage errno hfd⟩
  | @signalClosed t r creating ret errno x hc hx =>
      have hstage : (s.calls t).stage = .closing r := congrArg CallState.stage hc
      obtain ⟨value, hpresent, rfl⟩ := hs.presentOf hx (by rw [hstage]; simp)
      exact Or.inr ⟨r, x, value, signalClosed_present hpresent hstage ret creating⟩
  | @stopClosed t r creating ret ret' errno x hc hx =>
      have hstage : (s.calls t).stage = .closingStop r := congrArg CallState.stage hc
      obtain ⟨value, hpresent, rfl⟩ := hs.presentOf hx (by rw [hstage]; simp)
      exact Or.inr ⟨r, x, value, stopClosed_present hpresent hstage ret' creating⟩
  | @restored t r creating ret ret' maskRet x hc hx =>
      have hstage : (s.calls t).stage = .restoring r := congrArg CallState.stage hc
      obtain ⟨value, hpresent, rfl⟩ := hs.presentOf hx (by rw [hstage]; simp)
      have hmask : maskRet = 0 := hcontract
      rw [if_pos hmask]
      exact Or.inl (hpresent.restored hstage rfl)
  | @destroyed t r x hfree hx howner =>
      subst howner
      obtain ⟨value, hpresent⟩ := hs.present hx
      exact Or.inr ⟨r, x, value, destroyed_present hpresent hfree.stage⟩
  | readSignal hc _ _ =>
      refine hs.congr rfl rfl (stageOf_setCall_of_eq ?_) rfl rfl
      exact (congrArg CallState.stage hc).symm
  | @readStop t r x fd value₀ hc hx hfd hfile _ =>
      obtain ⟨value, hpresent⟩ := hs.present hx
      have hst : (CallState.returned .cancelled none).stage = s.stageOf t :=
        (congrArg CallState.stage hc).symm
      exact Or.inr ⟨r, x, 0, (counter_present hpresent 0 hfd hfile hst).2⟩
  | @requested t r x fd value₀ hfree hx hfd hfile =>
      obtain ⟨value, hpresent⟩ := hs.present hx
      have hst : (CallState.returned .ok none).stage = s.stageOf t := hfree.stage.symm
      exact Or.inr ⟨r, x, _, (counter_present hpresent _ hfd hfile hst).2⟩
  | sent => exact hs.congr rfl rfl rfl rfl rfl
  | delivered _ _ => exact hs.congr rfl rfl rfl rfl rfl
  | spawned hlive hnew => exact spawned_sound hs hlive hnew
  | exited _ => exact exited_sound hs hcontract

end Steps

end Runtime
end AppCore
