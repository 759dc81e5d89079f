/-
  AppCore.Core.Sessions

  The sessions of the bus, one between each `sys_core_init` and the `sys_core_shutdown`
  after it.  In which stage the bus is depends on where the entry point is, and no session
  leaves anything to the next one, unless one of four things happens (`Isolates`).
-/

import AppCore.Core.Table
import AppCore.Core.Threads
import AppCore.Event.Sessions

namespace AppCore
namespace Core

open Event (Bus Thread WorkerLoop CallState Call Globals Ordinary SessionStep)

variable {Tid K : Type*}

section Statement

variable [DecidableEq Tid] [DecidableEq K]

/-- A stop that is not refused is not made by the worker, and the steps of the bus keep the
    sessions apart. -/
def Isolates (s : Framework Tid K) : CoreAction Tid K → Prop
  | .busCall _ => ∀ f, s.frame = some f → f.point = .busStop → s.bus.globals.running = true →
      f.thread ≠ .worker
  | .bus a => Event.Isolates s.bus a
  | _ => True

/-- No worker has been left by any session. -/
def Framework.NoWorker (s : Framework Tid K) : Prop :=
  s.bus.worker = .absent ∧ ∀ n, s.abandoned n = .absent

/-- The worker is the only one. -/
def Framework.OneWorker (s : Framework Tid K) : Prop :=
  s.bus.worker ≠ .absent ∧ s.bus.worker ≠ .exited ∧ ∀ n, s.abandoned n = .absent

/-- What holds when `sys_event_bus_stop` and `sys_event_bus_start` have returned `SYS_OK`, and
    when `sys_event_bus_start` is about to reset the queue. -/
structure Framework.Isolated (s : Framework Tid K) : Prop where
  stopped : ∀ f k call out, s.frame = some f → f.point = .inBusStop k →
    s.bus.calls k = .returned call .ok out →
    s.bus.globals.subscribers = [] ∧ s.bus.globals.queueCount = 0 ∧
      (∀ t a, ¬ s.Executing t a) ∧ s.NoWorker
  started : ∀ f k call out, s.frame = some f → f.point = .inBusStart k →
    s.bus.calls k = .returned call .ok out →
    s.OneWorker ∧ ∀ a ∈ s.bus.globals.subscribers, s.firstSubscription ≤ a
  reset : ∀ f, s.frame = some f → f.point = .busStart → s.bus.globals.queueCount = 0

/-- The runs that keep the sessions apart. -/
def isolatingMachine (Tid K : Type*) [DecidableEq Tid] [DecidableEq K] :
    Machine (Framework Tid K) (CoreAction Tid K) :=
  (coreMachine Tid K).restrict fun s a _ => Isolates s a

end Statement

/-! ## The stage of the bus -/

/-- The stage of the bus while the entry point is at `f`. -/
def Frame.Stage (f : Frame Tid K) (b : Bus (Caller Tid) K) : Prop :=
  match f.point with
  | .busStart => f.entry = .init ∧ b.Shut
  | .inBusStart k => f.entry = .init ∧ b.StartStage (b.calls k)
  | .components => b.Up
  | .busStop => (b.Up ∨ b.Shut) ∧ (f.entry = .init → f.ret ≠ .ok)
  | .inBusStop k => b.StopStage (b.calls k) ∧ (f.entry = .init → f.ret ≠ .ok) ∧
      (b.calls k = .stopJoin → f.thread ≠ .worker)
  | .finish => if f.entry = .init ∧ f.ret = .ok then b.Up else b.Shut

/-- What holds in every state while the sessions are kept apart. -/
structure Framework.Sessioned (s : Framework Tid K) : Prop where
  threaded : s.Threaded
  sound : s.bus.Sound
  sole : ∀ n, s.abandoned n = .absent
  idle : s.frame = none → if s.core = .running then s.bus.Up else s.bus.Shut
  stage : ∀ f, s.frame = some f → f.Stage s.bus
  first : s.firstSubscription ≤ s.bus.globals.nextId
  table : ∀ a ∈ s.bus.globals.subscribers, s.firstSubscription ≤ a

section Steps

variable {s s' : Framework Tid K} {f : Frame Tid K} {b : Bus (Caller Tid) K} {k : K}

theorem Frame.Stage.at_inBusStart (h : f.Stage b) (hpoint : f.point = .inBusStart k) :
    f.entry = .init ∧ b.StartStage (b.calls k) := by
  rw [Frame.Stage, hpoint] at h
  exact h

theorem Frame.Stage.at_inBusStop (h : f.Stage b) (hpoint : f.point = .inBusStop k) :
    b.StopStage (b.calls k) ∧ (f.entry = .init → f.ret ≠ .ok) ∧
      (b.calls k = .stopJoin → f.thread ≠ .worker) := by
  rw [Frame.Stage, hpoint] at h
  exact h

theorem Frame.Stage.at_busStart (h : f.Stage b) (hpoint : f.point = .busStart) :
    f.entry = .init ∧ b.Shut := by
  rw [Frame.Stage, hpoint] at h
  exact h

theorem Frame.Stage.at_busStop (h : f.Stage b) (hpoint : f.point = .busStop) :
    (b.Up ∨ b.Shut) ∧ (f.entry = .init → f.ret ≠ .ok) := by
  rw [Frame.Stage, hpoint] at h
  exact h

variable [DecidableEq Tid] [DecidableEq K]

omit [DecidableEq Tid] in
/-- A step that neither starts nor stops the bus leaves the stage alone. -/
theorem Frame.Stage.ordinary {adds : Prop} (h : f.Stage s.bus) (hord : Ordinary s.bus b)
    (heffect : Event.Effect s.bus b)
    (htable : Event.TableStep adds s.bus.globals s.bus.calls b.globals b.calls) : f.Stage b := by
  have hshut : s.bus.Shut → b.Shut := hord.shut heffect htable
  unfold Frame.Stage at h ⊢
  split at h
  · exact ⟨h.1, hshut h.2⟩
  · rename_i k _
    obtain ⟨hentry, hstage⟩ := h
    rw [hord.calls k hstage.session]
    exact ⟨hentry, hord.startStage heffect htable hstage⟩
  · exact hord.up h
  · exact ⟨h.1.imp hord.up hshut, h.2⟩
  · rename_i k _
    obtain ⟨hstage, hret, hworker⟩ := h
    rw [hord.calls k hstage.session]
    exact ⟨hord.stopStage heffect htable hstage, hret, hworker⟩
  · split at h
    · rename_i hok
      rw [if_pos hok]
      exact hord.up h
    · rename_i hok
      rw [if_neg hok]
      exact hshut h

/-! ### Steps of the bus -/

/-- Without abandoned workers a step of the bus is one of its own. -/
theorem busStep_next (hs : s.Sessioned) {a : Event.Action (Caller Tid) K}
    (h : busStep s a = some s') :
    ∃ b, Event.next s.bus a = some b ∧ s' = { s with bus := b } := by
  have hloop : ∀ n, (s.view n).worker = .absent := hs.sole
  cases a with
  | call t k call =>
      simp only [busStep] at h
      split at h
      · obtain ⟨b, hb, rfl⟩ := Option.map_eq_some_iff.mp h
        exact ⟨b, hb, rfl⟩
      · cases h
  | proceed t =>
      simp only [busStep] at h
      split at h
      · rename_i n _
        rw [Event.proceedWorker, hloop] at h
        cases h
      · obtain ⟨b, hb, rfl⟩ := Option.map_eq_some_iff.mp h
        exact ⟨b, hb, rfl⟩
  | callbackReturn t ret =>
      simp only [busStep] at h
      split at h
      · cases h
      · split at h
        · rename_i n _
          obtain ⟨b, hb, -⟩ := Option.map_eq_some_iff.mp h
          obtain ⟨w, tls, hloops, -⟩ :=
            Event.callbackReturn_loops (.caller (.inr n)) (view_stack s n) hb
          rw [hloop] at hloops
          cases hloops with
          | resumed hw _ => cases hw
        · obtain ⟨b, hb, rfl⟩ := Option.map_eq_some_iff.mp h
          exact ⟨b, hb, rfl⟩
  | threadCreate t ret =>
      simp only [busStep] at h
      split at h
      · rename_i hcan
        obtain ⟨b, hb, -⟩ := Option.map_eq_some_iff.mp h
        obtain ⟨k, hk⟩ := Event.threadCreate_starting hb
        exact absurd (hs.sound.shaped.startable k hk).1 hcan.2
      · obtain ⟨b, hb, rfl⟩ := Option.map_eq_some_iff.mp h
        exact ⟨b, hb, rfl⟩
  | join t ret =>
      obtain ⟨b, hb, rfl⟩ := Option.map_eq_some_iff.mp h
      exact ⟨b, hb, rfl⟩

omit [DecidableEq Tid] [DecidableEq K] in
/-- The call of an entry point that is in progress. -/
theorem Framework.Threaded.frame_of_inSession (hs : s.Threaded) (h : (s.bus.calls k).InSession) :
    ∃ f, s.frame = some f ∧ (f.point = .inBusStart k ∨ f.point = .inBusStop k) := by
  rcases h with h | h | h | h
  · obtain ⟨f, hf, hpoint⟩ := hs.starting k (Or.inl h)
    exact ⟨f, hf, Or.inl hpoint⟩
  · obtain ⟨f, hf, hpoint⟩ := hs.starting k (Or.inr h)
    exact ⟨f, hf, Or.inl hpoint⟩
  · obtain ⟨f, hf, hpoint⟩ := hs.stopping k (Or.inl h)
    exact ⟨f, hf, Or.inr hpoint⟩
  · obtain ⟨f, hf, hpoint⟩ := hs.stopping k (Or.inr h)
    exact ⟨f, hf, Or.inr hpoint⟩

omit [DecidableEq Tid] [DecidableEq K] in
/-- A join is not refused: the thread of a stop is not the worker, and there is a thread to
    join. -/
theorem Framework.Sessioned.not_refused (hs : s.Sessioned) {t : Thread (Caller Tid)}
    {rest : List K} (hstack : s.bus.stack t = k :: rest) (hk : s.bus.calls k = .stopJoin) :
    s.bus.globals.thread = true ∧ t ≠ .worker := by
  obtain ⟨f, hf, hpoint⟩ := hs.threaded.stopping k (Or.inl hk)
  obtain ⟨hstage, -, hworker⟩ := (hs.stage f hf).at_inBusStop hpoint
  have hthread : t = f.thread := by
    rcases (hs.threaded.frame f hf).call k (Or.inr hpoint) with ⟨-, rest', hstack', -⟩ | ⟨hover, -⟩
    · apply hs.threaded.nested.disjoint t f.thread k
      · show k ∈ s.bus.stack t
        rw [hstack]
        exact List.mem_cons_self
      · show k ∈ s.bus.stack f.thread
        rw [hstack']
        exact List.mem_cons_self
    · rw [hk] at hover
      cases hover
  rw [hk] at hstage
  cases hstage with
  | joining _ hjoinable =>
      refine ⟨hjoinable, ?_⟩
      rw [hthread]
      exact hworker hk

omit [DecidableEq Tid] in
/-- The call of the entry point makes a step of its own. -/
theorem Frame.Stage.session (h : f.Stage s.bus) (hsound : s.bus.Sound)
    (hstep : SessionStep s.bus k b) (hpoint : f.point = .inBusStart k ∨ f.point = .inBusStop k) :
    f.Stage b := by
  rcases hpoint with hpoint | hpoint
  · obtain ⟨hentry, hstage⟩ := h.at_inBusStart hpoint
    rw [Frame.Stage, hpoint]
    exact ⟨hentry, hstep.startStage hstage⟩
  · obtain ⟨hstage, hret, -⟩ := h.at_inBusStop hpoint
    rw [Frame.Stage, hpoint]
    exact ⟨hstep.stopStage hsound hstage, hret, fun hjoin => absurd hjoin hstep.not_joining⟩

omit [DecidableEq K] in
/-- The numbers of the table grow. -/
theorem first_le_of_tableStep {adds : Prop} {g g' : Globals K} {calls calls' : K → CallState}
    {first : Nat} (h : Event.TableStep adds g calls g' calls') (hfirst : first ≤ g.nextId)
    (htable : ∀ a ∈ g.subscribers, first ≤ a) :
    first ≤ g'.nextId ∧ ∀ a ∈ g'.subscribers, first ≤ a := by
  cases h with
  | kept hkeeps _ =>
      rw [hkeeps.subscribers, hkeeps.nextId]
      exact ⟨hfirst, htable⟩
  | added _ _ hsubs hnext _ _ =>
      rw [hsubs, hnext]
      refine ⟨by omega, fun a ha => ?_⟩
      rcases List.mem_append.mp ha with ha | ha
      · exact htable a ha
      · rw [List.mem_singleton.mp ha]
        exact hfirst
  | removed a _ hsubs hnext _ _ =>
      rw [hsubs, hnext]
      exact ⟨hfirst, fun b hb => htable b (List.mem_of_mem_erase hb)⟩
  | freed _ _ _ hsubs hnext _ _ =>
      rw [hsubs, hnext]
      exact ⟨hfirst, htable⟩
  | emptied hsubs hnext _ _ =>
      rw [hsubs, hnext]
      exact ⟨hfirst, fun b hb => (List.not_mem_nil hb).elim⟩

/-- The application does not start the bus, nor stop it. -/
theorem busStep_userCall {a : Event.Action (Caller Tid) K} (h : busStep s a = some s') :
    ∀ t k call, a = .call t k call → call ≠ .start ∧ call ≠ .stop := by
  rintro t k call rfl
  simp only [busStep] at h
  split at h
  · rename_i hcan
    constructor
    · rintro rfl
      exact absurd hcan.1 (by decide)
    · rintro rfl
      exact absurd hcan.1 (by decide)
  · cases h

/-- A step of the bus is ordinary, or one of the call of the entry point. -/
theorem busStep_session (hs : s.Sessioned) {a : Event.Action (Caller Tid) K}
    (hallowed : Isolates s (.bus a)) (h : busStep s a = some s') :
    Ordinary s.bus s'.bus ∨ ∃ k, SessionStep s.bus k s'.bus := by
  have huser := busStep_userCall h
  obtain ⟨b, hb, rfl⟩ := busStep_next hs h
  exact Event.next_session hallowed huser (fun t k rest => hs.not_refused) hb

theorem busStep_sessioned (hs : s.Sessioned) {a : Event.Action (Caller Tid) K}
    (hallowed : Isolates s (.bus a)) (h : busStep s a = some s') : s'.Sessioned := by
  have hthreaded := (busStep_move h).threaded hs.threaded
  have htable := busStep_table h
  have huser := busStep_userCall h
  have hsession := busStep_session hs hallowed h
  obtain ⟨b, hb, rfl⟩ := busStep_next hs h
  have hidle : Event.StartsIdle s.bus a := by
    cases a with
    | call t k call =>
        cases call with
        | start => exact absurd rfl (huser t k .start rfl).1
        | stop => trivial
        | subscribe _ _ _ _ _ => trivial
        | unsubscribe _ => trivial
        | publishSync _ _ _ => trivial
        | publishAsync _ _ _ _ => trivial
    | proceed t => trivial
    | callbackReturn t ret => trivial
    | threadCreate t ret => trivial
    | join t ret => trivial
  have heffect := Event.next_effect hs.sound hidle hb
  obtain ⟨hfirst, hnumbers⟩ := first_le_of_tableStep htable hs.first hs.table
  refine ⟨hthreaded, heffect.sound hs.sound, hs.sole, fun hnone => ?_, fun f hf => ?_, hfirst,
    hnumbers⟩
  · rcases hsession with hord | ⟨k, hstep⟩
    · have hidle := hs.idle hnone
      by_cases hrun : s.core = .running
      · rw [if_pos hrun] at hidle ⊢
        exact hord.up hidle
      · rw [if_neg hrun] at hidle ⊢
        exact hord.shut heffect htable hidle
    · obtain ⟨f, hf, -⟩ := hs.threaded.frame_of_inSession hstep.inSession
      have hnone : s.frame = none := hnone
      rw [hnone] at hf
      cases hf
  · rcases hsession with hord | ⟨k, hstep⟩
    · exact (hs.stage f hf).ordinary hord heffect htable
    · obtain ⟨f', hf', hpoint⟩ := hs.threaded.frame_of_inSession hstep.inSession
      obtain rfl := Option.some.inj (hf'.symm.trans hf)
      exact (hs.stage f' hf).session hs.sound hstep hpoint

/-! ### Steps of the entry points -/

omit [DecidableEq Tid] [DecidableEq K] in
/-- The entry point moves without the bus. -/
theorem Framework.Sessioned.moves {core : CoreState} {frame : Option (Frame Tid K)}
    {returned : Option (Entry × SysErr)} (hs : s.Sessioned)
    (hthreaded : ({ s with core := core, frame := frame, returned := returned } :
      Framework Tid K).Threaded)
    (hidle : frame = none → if core = .running then s.bus.Up else s.bus.Shut)
    (hstage : ∀ f, frame = some f → f.Stage s.bus) :
    ({ s with core := core, frame := frame, returned := returned } :
      Framework Tid K).Sessioned :=
  ⟨hthreaded, hs.sound, hs.sole, hidle, hstage, hs.first, hs.table⟩

omit [DecidableEq Tid] [DecidableEq K] in
theorem sysCoreInit_sessioned {t : Thread (Caller Tid)} (hs : s.Sessioned)
    (hthreaded : (sysCoreInit s t).Threaded) : (sysCoreInit s t).Sessioned := by
  unfold sysCoreInit at hthreaded ⊢
  split at hthreaded
  · rename_i hcore
    rw [if_pos hcore]
    exact hs.moves hthreaded hs.idle hs.stage
  · rename_i hcore
    have hstopped : s.core = .stopped := not_not.mp hcore
    have hshut : s.bus.Shut := by
      have hidle := hs.idle (hs.threaded.idle (Or.inl hstopped))
      rwa [if_neg (by rw [hstopped]; decide)] at hidle
    rw [if_neg hcore]
    refine hs.moves hthreaded (fun h => nomatch h) fun f hf => ?_
    obtain rfl := Option.some.inj hf
    exact ⟨rfl, hshut⟩

omit [DecidableEq Tid] [DecidableEq K] in
theorem sysCoreShutdown_sessioned {t : Thread (Caller Tid)} (hs : s.Sessioned)
    (hthreaded : (sysCoreShutdown s t).Threaded) : (sysCoreShutdown s t).Sessioned := by
  unfold sysCoreShutdown at hthreaded ⊢
  split at hthreaded
  · rename_i hcore
    rw [if_pos hcore]
    exact hs.moves hthreaded hs.idle hs.stage
  · rename_i hcore
    have hrunning : s.core = .running := not_not.mp hcore
    have hup : s.bus.Up := by
      have hidle := hs.idle (hs.threaded.idle (Or.inr hrunning))
      rwa [if_pos hrunning] at hidle
    rw [if_neg hcore]
    refine hs.moves hthreaded (fun h => nomatch h) fun f hf => ?_
    obtain rfl := Option.some.inj hf
    exact hup

theorem busCall_sessioned {k : K} (hs : s.Sessioned) (hallowed : Isolates s (.busCall k))
    (h : next s (.busCall k) = some s') : s'.Sessioned := by
  have hthreaded := next_threaded hs.threaded h
  cases next_cases h with
  | @startCalled f _ b hf hpoint hk hb =>
      -- a start finds the bus shut
      obtain ⟨hentry, hshut⟩ := (hs.stage f hf).at_busStart hpoint
      have hno : ∀ k', ¬ (s.bus.calls k').InSession := by
        intro k' hk'
        obtain ⟨f', hf', hp⟩ := hs.threaded.frame_of_inSession hk'
        obtain rfl := Option.some.inj (hf.symm.trans hf')
        rw [hpoint] at hp
        rcases hp with hp | hp <;> cases hp
      have hidle : Event.StartsIdle s.bus (.call f.thread k .start) :=
        Or.inr (hshut.idle hs.sound hno)
      have hsound := (Event.begin_effect hs.sound hk hidle hb).sound hs.sound
      obtain ⟨hstart, hstarting, hempty⟩ := Event.begin_startStage hshut hb
      refine ⟨hthreaded, hsound, hs.sole, (fun h => nomatch h), fun f' hf' => ?_, ?_,
        fun a ha => ?_⟩
      · obtain rfl := Option.some.inj hf'
        exact ⟨hentry, hstart⟩
      · show (if b.calls k = .starting then b.globals.nextId else s.firstSubscription) ≤ _
        rw [if_pos hstarting]
      · have ha : a ∈ b.globals.subscribers := ha
        rw [hempty] at ha
        exact (List.not_mem_nil ha).elim
  | @stopCalled f _ b hf hpoint hk hb =>
      obtain ⟨hbus, hret⟩ := (hs.stage f hf).at_busStop hpoint
      have hidle : Event.StartsIdle s.bus (.call f.thread k .stop) := trivial
      have hsound := (Event.begin_effect hs.sound hk hidle hb).sound hs.sound
      obtain ⟨hstop, hjoin⟩ := Event.begin_stopStage hbus hb
      obtain ⟨hfirst, hnumbers⟩ := first_le_of_tableStep (Event.begin_table hb) hs.first hs.table
      refine ⟨hthreaded, hsound, hs.sole, (fun h => nomatch h), fun f' hf' => ?_, hfirst, hnumbers⟩
      obtain rfl := Option.some.inj hf'
      exact ⟨hstop, hret, fun hjoins => hallowed f hf hpoint (hjoin hjoins)⟩

theorem busReturned_sessioned {unjoined : Bool} (hs : s.Sessioned)
    (h : next s (.busReturned unjoined) = some s') : s'.Sessioned := by
  have hthreaded := next_threaded hs.threaded h
  cases next_cases h with
  | @startReturned f _ call ret out _ hf hpoint hk =>
      obtain ⟨-, hstart⟩ := (hs.stage f hf).at_inBusStart hpoint
      rw [hk] at hstart
      refine hs.moves hthreaded (fun h => nomatch h) fun f' hf' => ?_
      obtain rfl := Option.some.inj hf'
      cases hstart with
      | up hup => exact hup
      | shut hret hshut =>
          rw [Frame.Stage, if_neg hret]
          exact ⟨Or.inr hshut, fun _ => hret⟩
  | @stopReturned f _ call ret out _ hf hpoint hk =>
      obtain ⟨hstop, hret, -⟩ := (hs.stage f hf).at_inBusStop hpoint
      rw [hk] at hstop
      refine hs.moves hthreaded (fun h => nomatch h) fun f' hf' => ?_
      obtain rfl := Option.some.inj hf'
      cases hstop with
      | shut hshut =>
          rw [Frame.Stage]
          dsimp only
          -- an initialization that stops the bus has failed
          rw [if_neg]
          · exact hshut
          · rintro ⟨hentry, hok⟩
            rw [hentry] at hok
            exact hret hentry hok

theorem componentsReturned_sessioned {ret : SysErr} (hs : s.Sessioned)
    (h : next s (.componentsReturned ret) = some s') : s'.Sessioned := by
  have hthreaded := next_threaded hs.threaded h
  cases next_cases h with
  | @passReturned f _ hf hpoint hlen =>
      have hup : s.bus.Up := by
        have hstage := hs.stage f hf
        rw [Frame.Stage, hpoint] at hstage
        exact hstage
      refine hs.moves hthreaded (fun h => nomatch h) fun f' hf' => ?_
      obtain rfl := Option.some.inj hf'
      by_cases hok : f.entry = .init ∧ ret = .ok
      · rw [Frame.Stage, if_pos hok]
        dsimp only
        rw [if_pos hok]
        exact hup
      · rw [Frame.Stage, if_neg hok]
        exact ⟨Or.inl hup, fun hentry hret => hok ⟨hentry, hret⟩⟩

theorem finish_sessioned (hs : s.Sessioned) (h : next s .finish = some s') : s'.Sessioned := by
  have hthreaded := next_threaded hs.threaded h
  cases next_cases h with
  | @finished f hf hpoint =>
      have hstage := hs.stage f hf
      rw [Frame.Stage, hpoint] at hstage
      dsimp only at hstage
      refine hs.moves hthreaded (fun _ => ?_) fun f' hf' => nomatch hf'
      by_cases hok : f.entry = .init ∧ f.ret = .ok
      · rw [if_pos hok] at hstage ⊢
        exact hstage
      · rw [if_neg hok] at hstage ⊢
        exact hstage

/-- Every step that keeps the sessions apart. -/
theorem next_sessioned {a : CoreAction Tid K} (hs : s.Sessioned) (hallowed : Isolates s a)
    (h : next s a = some s') : s'.Sessioned := by
  have hthreaded := next_threaded hs.threaded h
  cases a with
  | bus a => exact busStep_sessioned hs hallowed h
  | init t =>
      cases next_cases h with
      | init hcode => exact sysCoreInit_sessioned hs hthreaded
  | shutdown t =>
      cases next_cases h with
      | shutdown hcode => exact sysCoreShutdown_sessioned hs hthreaded
  | busCall k => exact busCall_sessioned hs hallowed h
  | busReturned unjoined => exact busReturned_sessioned hs h
  | componentsReturned ret => exact componentsReturned_sessioned hs h
  | finish => exact finish_sessioned hs h

/-! ## Runs -/

omit [DecidableEq Tid] [DecidableEq K] in
theorem zero_sessioned : (Framework.zero Tid K).Sessioned := by
  have hshut : (Bus.zero (Caller Tid) K).Shut :=
    ⟨⟨rfl, rfl, by simp [Bus.zero]⟩, Event.queued_eq_nil rfl, rfl, fun _ => rfl⟩
  exact ⟨zero_threaded, Bus.zero_sound, fun _ => rfl, fun _ => hshut, (fun f hf => nomatch hf),
    Nat.zero_le _, fun a ha => (List.not_mem_nil ha).elim⟩

theorem sessioned_of_reachable (h : (isolatingMachine Tid K).Reachable s) : s.Sessioned := by
  refine h.invariant (I := fun s => s.Sessioned) ?_ fun u a v hu hstep => ?_
  · rintro s rfl
    exact zero_sessioned
  · exact next_sessioned hu hstep.2 hstep.1

omit [DecidableEq Tid] [DecidableEq K] in
/-- Nobody is called back while the bus is shut. -/
theorem not_executing_of_shut (hshut : s.bus.Shut) (hsole : ∀ n, s.abandoned n = .absent)
    (t : Thread (Caller Tid)) (a : Nat) : ¬ s.Executing t a := by
  rintro (⟨k, -, d, firstError, hcall, -, hhead⟩ | ⟨k, d, hloop, -, -⟩)
  · have hrefs := hshut.refs k
    rw [hcall] at hrefs
    have hnil : d.pending = [] := hrefs
    rw [hnil] at hhead
    cases hhead
  · rcases hloop with ⟨-, hw⟩ | ⟨n, -, hw⟩
    · rw [hshut.stands.worker.mpr rfl] at hw
      cases hw
    · rw [hsole n] at hw
      cases hw

/-- Sessions are isolated: a stop that has returned `SYS_OK` has left nothing behind, and a start
    that has returned `SYS_OK` has found nothing. -/
theorem sessions_isolated (h : (isolatingMachine Tid K).Reachable s) : s.Isolated := by
  have hs := sessioned_of_reachable h
  constructor
  · intro f k call out hf hpoint hk
    obtain ⟨hstop, -, -⟩ := (hs.stage f hf).at_inBusStop hpoint
    rw [hk] at hstop
    cases hstop with
    | shut hshut =>
        refine ⟨hshut.subscribers, hs.sound.shaped.queueOk.queueCount_eq_zero hshut.queued, ?_,
          hshut.stands.worker.mpr rfl, hs.sole⟩
        exact not_executing_of_shut hshut hs.sole
  · intro f k call out hf hpoint hk
    obtain ⟨-, hstart⟩ := (hs.stage f hf).at_inBusStart hpoint
    rw [hk] at hstart
    cases hstart with
    | up hup =>
        refine ⟨⟨fun habsent => ?_, fun hexited => ?_, hs.sole⟩, hs.table⟩
        · cases hup.stands.worker.mp habsent
        · -- a worker only leaves its loop after a stop
          have hrun := (hs.sound.shaped.flagged.exited hexited).1
          rw [hup.stands.running] at hrun
          cases hrun
    | shut hret _ => exact absurd rfl hret
  · intro f hf hpoint
    obtain ⟨-, hshut⟩ := (hs.stage f hf).at_busStart hpoint
    exact hs.sound.shaped.queueOk.queueCount_eq_zero hshut.queued

end Steps

/-- A thread starts the framework and shuts it down again. -/
def startStopRun : List (CoreAction Unit Nat) :=
  [.init (.caller (.inl ())), .busCall 0, .bus (.threadCreate (.caller (.inl ())) .ok),
    .bus (.proceed (.caller (.inl ()))), .busReturned false, .componentsReturned .ok, .finish,
    .shutdown (.caller (.inl ())), .componentsReturned .ok, .busCall 1,
    .bus (.proceed .worker), .bus (.join (.caller (.inl ())) 0),
    .bus (.proceed (.caller (.inl ())))]

/-- The stop of a session has returned. -/
theorem sessions_isolated_shutdown :
    ∃ s : Framework Unit Nat, s.bus.calls 1 = .returned .stop .ok none ∧ s.Isolated := by
  have hallowed : Machine.Along next Isolates (Framework.zero Unit Nat) startStopRun := by
    refine ⟨trivial, fun _ h₁ => ⟨?_, fun _ h₂ => ⟨(fun hret => absurd rfl hret), fun _ h₃ => ⟨?_,
      fun _ h₄ => ⟨trivial, fun _ h₅ => ⟨trivial, fun _ h₆ => ⟨trivial, fun _ h₇ => ⟨trivial,
      fun _ h₈ => ⟨trivial, fun _ h₉ => ⟨?_, fun _ h₁₀ => ⟨?_, fun _ h₁₁ => ⟨rfl,
      fun _ h₁₂ => ⟨?_, fun _ _ => trivial⟩⟩⟩⟩⟩⟩⟩⟩⟩⟩⟩⟩⟩
    all_goals
      obtain rfl := Option.some.inj h₁
    · intro f hf hpoint
      obtain rfl := Option.some.inj hf
      cases hpoint
    all_goals
      obtain rfl := Option.some.inj h₂
      obtain rfl := Option.some.inj h₃
    · intro k rest hstack hk
      obtain rfl := (List.cons.inj hstack).1
      cases hk
    all_goals
      obtain rfl := Option.some.inj h₄
      obtain rfl := Option.some.inj h₅
      obtain rfl := Option.some.inj h₆
      obtain rfl := Option.some.inj h₇
      obtain rfl := Option.some.inj h₈
      obtain rfl := Option.some.inj h₉
    · intro f hf _ _
      obtain rfl := Option.some.inj hf
      simp
    all_goals
      obtain rfl := Option.some.inj h₁₀
    · intro k rest hstack
      cases hstack
    all_goals
      obtain rfl := Option.some.inj h₁₁
      obtain rfl := Option.some.inj h₁₂
    · intro k rest _ _ _ k' a hk'
      have hcalls : Function.update (Function.update (Function.update (Function.update
          (Function.update (fun _ => CallState.notStarted) 0 .starting) 0 .storing) 0
          (.returned .start .ok none)) 1 .stopJoin) 1 .stopWait k' = .unsubscribeWait a := hk'
      by_cases hone : k' = 1
      · rw [hone, Function.update_self] at hcalls
        cases hcalls
      · rw [Function.update_of_ne hone, Function.update_of_ne hone] at hcalls
        by_cases hzero : k' = 0
        · rw [hzero, Function.update_self] at hcalls
          cases hcalls
        · rw [Function.update_of_ne hzero, Function.update_of_ne hzero,
            Function.update_of_ne hzero] at hcalls
          cases hcalls
  have hexec : ∃ s, Machine.exec next (Framework.zero Unit Nat) startStopRun = some s ∧
      s.bus.calls 1 = .returned .stop .ok none := ⟨_, rfl, rfl⟩
  obtain ⟨s, hexec, hcall⟩ := hexec
  have hreach : (isolatingMachine Unit Nat).Reachable s :=
    ⟨_, _, rfl, Machine.Run.of_exec_along hexec hallowed⟩
  exact ⟨s, hcall, sessions_isolated hreach⟩

/-- Another thread subscribes before the creation of the worker fails: the stop returns at once
    and leaves the subscription in the table. -/
theorem failed_start_leaves_subscription :
    ¬ ∀ s : Framework Bool Nat, (coreMachine Bool Nat).Reachable s → s.Isolated := by
  intro hclaim
  have hexec : ∃ s f, Machine.exec next (Framework.zero Bool Nat)
      [.init (.caller (.inl true)), .busCall 0,
        .bus (.call (.caller (.inl false)) 1 (.subscribe 7 5 0 true true)),
        .bus (.threadCreate (.caller (.inl true)) .noMemory), .busReturned false, .busCall 2] =
        some s ∧ s.frame = some f ∧ f.point = .inBusStop 2 ∧
      s.bus.calls 2 = .returned .stop .ok none ∧ s.bus.globals.subscribers = [1] :=
    ⟨_, _, rfl, rfl, rfl, rfl, rfl⟩
  obtain ⟨s, f, hexec, hf, hpoint, hcall, hsubs⟩ := hexec
  have hisolated := hclaim s ⟨_, _, rfl, Machine.Run.of_exec hexec⟩
  have hempty := (hisolated.stopped f 2 .stop none hf hpoint hcall).1
  rw [hsubs] at hempty
  cases hempty

end Core
end AppCore
