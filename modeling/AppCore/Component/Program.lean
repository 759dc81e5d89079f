/-
  AppCore.Component.Program

  `core/sys_component.c` write by write: each function as a program whose
  points are the writes to the component table, the callback calls and the
  reads it branches on.  A callback may return anything each time it is called.
  The functions of `AppCore.Component.Model` are the runs of this machine in
  which the callbacks answer by a `Callbacks`.
-/

import AppCore.Component.Model
import AppCore.Lib.Program

namespace AppCore
namespace Component

/-- A single write to the static variables of `sys_component.c`, or the call of
    a `deinit` callback. -/
inductive Op where
  /-- The assignments of `collect_components`. -/
  | collect (sec : LinkSection)
  /-- `update_state(component, state, error)`. -/
  | update (id : UInt32) (state : ComponentState) (error : SysErr)
  /-- `update_state(component, state, component->last_error)`. -/
  | keep (id : UInt32) (state : ComponentState)
  | setInitialized (id : UInt32) (b : Bool)
  | setStarted (id : UInt32) (b : Bool)
  | pushInitialized (component : ComponentDesc)
  | popInitialized
  | pushStarted (component : ComponentDesc)
  | popStarted
  | deinit (id : UInt32)

/-- What a write leaves. -/
def Op.apply : Op → Lifecycle → Lifecycle
  | .collect sec, g => (collectComponents sec g).2
  | .update id state error, g => updateState id state error g
  | .keep id state, g => updateState id state (g.runtime id).lastError g
  | .setInitialized id b, g => Component.setInitialized id b g
  | .setStarted id b, g => Component.setStarted id b g
  | .pushInitialized c, g => { g with initializedOrder := c :: g.initializedOrder }
  | .popInitialized, g => { g with initializedOrder := g.initializedOrder.tail }
  | .pushStarted c, g => { g with startedOrder := c :: g.startedOrder }
  | .popStarted, g => { g with startedOrder := g.startedOrder.tail }
  | .deinit id, g => g.record (.deinit id)

/-- A callback whose result the framework reads. -/
inductive Request where
  | init (component : ComponentDesc)
  | start (component : ComponentDesc)
  | stop (component : ComponentDesc)

/-- The result the framework sees: `SYS_OK` for a `NULL` start or stop. -/
def Request.result : Request → SysErr → SysErr
  | .init _, a => a
  | .start c, a => if c.hasStart then a else .ok
  | .stop c, a => if c.hasStop then a else .ok

/-- The call site a request passes. -/
def Request.site (r : Request) (a : SysErr) : Call :=
  match r with
  | .init c => .init c.id (r.result a)
  | .start c => .start c.id (r.result a)
  | .stop c => .stop c.id (r.result a)

/-- The callbacks answer a request by this function. -/
def Callbacks.answer (cb : Callbacks) : Request → SysErr
  | .init c => cb.init c.id
  | .start c => cb.start c.id
  | .stop c => cb.stop c.id

/-- Who runs `rollback_components`, with the error `start_all` will return. -/
inductive Caller where
  | startAll (ret : SysErr)
  | stopAll
deriving DecidableEq, Repr

/-- How the last entry point returned. -/
inductive Returned where
  | nothing
  /-- `start_all` returned the error of `collect_components`. -/
  | rejected (ret : SysErr)
  /-- `start_all` returned `SYS_OK`. -/
  | started
  /-- `start_all` returned this error after a rollback. -/
  | rolledBack (ret : SysErr)
  /-- `stop_all` returned. -/
  | stopped (ret : SysErr)
deriving DecidableEq, Repr

/-- `rollback_components` returned `ret`. -/
def Caller.returned (ret : SysErr) : Caller → Returned
  | .startAll error => .rolledBack error
  | .stopAll => .stopped ret

/-- The heads of the loops, and the framework at rest. -/
inductive Place where
  | idle (last : Returned)
  | phaseLoop (phases : List Nat)
  | round (phase : Nat) (phases : List Nat)
  | scan (phase : Nat) (phases : List Nat) (rest : List ComponentDesc) (round : Round)
  | startLoop (rest : List ComponentDesc)
  | stopLoop (caller : Caller) (firstError : SysErr)
  | deinitLoop (caller : Caller) (ret : SysErr)

/-- The entry points, and going on with a loop. -/
inductive Input where
  | startAll (sec : LinkSection)
  | stopAll
  | go

/-- Code of the component framework up to the next place. -/
abbrev Steps := Program Lifecycle Op Request SysErr Place

/-! ## The functions -/

/-- `handle_dependency_failure`, `k` being what follows with its result. -/
def handleDependencyFailureSteps (component : ComponentDesc) (k : SysErr → Steps) : Steps :=
  .write (.update component.id .skipped .dependency) <|
  k (if component.policy = policyRequired then .dependency else .ok)

/-- `initialize_component`. -/
def initializeComponentSteps (component : ComponentDesc) (k : SysErr → Steps) : Steps :=
  .write (.update component.id .initializing .ok) <|
  .call (.init component) fun ret =>
    if ret ≠ .ok then
      .write (.update component.id .failed ret) <|
      k (if component.policy = policyRequired then ret else .ok)
    else
      .write (.setInitialized component.id true) <|
      .write (.pushInitialized component) <|
      .write (.update component.id .initialized .ok) <|
      k .ok

/-- The body of the scan in `initialize_phase` for one slot, with the state it
    reads; `k` goes on with the scan, `halt` returns an error. -/
def scanComponentSteps (phase : Nat) (component : ComponentDesc) (round : Round)
    (g : Lifecycle) (halt : SysErr → Steps) (k : Round → Steps) : Steps :=
  if (g.runtime component.id).state ≠ .discovered ∨ component.phase ≠ phase then k round
  else
    let round := { round with pendingCount := round.pendingCount + 1 }
    match checkDependencies g component false with
    | .failed =>
      handleDependencyFailureSteps component fun ret =>
        if ret ≠ .ok then halt ret else k { round with skippedComponent := true }
    | .ready =>
      if betterCandidate component round.candidate then
        k { round with candidate := some component }
      else k round
    | .waiting => k round

/-- The `deinit` call and the flag write of an optional component that is not
    started. -/
def releaseSteps (component : ComponentDesc) (next : Steps) : Steps :=
  .write (.deinit component.id) <|
  .write (.setInitialized component.id false) next

/-- `start_component`. -/
def startComponentSteps (component : ComponentDesc) (k : SysErr → Steps) : Steps :=
  .test (fun g => checkDependencies g component true ≠ .ready)
    (handleDependencyFailureSteps component fun ret =>
      if ret = .ok then
        .test (fun g => (g.runtime component.id).initialized)
          (releaseSteps component (k ret)) (k ret)
      else k ret)
    (.write (.update component.id .starting .ok) <|
      .call (.start component) fun a =>
        let ret := (Request.start component).result a
        if ret ≠ .ok then
          .write (.update component.id .failed ret) <|
          if component.policy = policyRequired then k ret else releaseSteps component (k .ok)
        else
          .write (.setStarted component.id true) <|
          .write (.pushStarted component) <|
          .write (.update component.id .running .ok) <|
          k .ok)

/-- One iteration of `stop_started_components`, after the pop. -/
def stopComponentSteps (component : ComponentDesc) (k : SysErr → Steps) : Steps :=
  .write (.keep component.id .stopping) <|
  .call (.stop component) fun a =>
    let ret := (Request.stop component).result a
    .write (.setStarted component.id false) <|
    if ret ≠ .ok then .write (.update component.id .failed ret) (k ret)
    else .write (.keep component.id .stopped) (k .ok)

/-- One iteration of `deinitialize_components`, after the pop. -/
def deinitializeComponentSteps (component : ComponentDesc) (next : Steps) : Steps :=
  .test (fun g => (g.runtime component.id).initialized)
    (releaseSteps component <|
      .test (fun g => (g.runtime component.id).state ≠ .failed ∧
          (g.runtime component.id).state ≠ .skipped)
        (.write (.keep component.id .stopped) next) next)
    next

/-- Where `start_all` goes after an error: to the rollback. -/
def haltSteps (ret : SysErr) : Steps := .done (.stopLoop (.startAll ret) .ok)

/-- The code run from a place. -/
def enter : Place → Input → Lifecycle → Option Steps
  | .idle _, .startAll sec, g =>
    let ret := (collectComponents sec g).1
    some <| .write (.collect sec) <|
      .done (if ret ≠ .ok then .idle (.rejected ret) else .phaseLoop (List.range phaseCount))
  | .idle _, .stopAll, _ => some (.done (.stopLoop .stopAll .ok))
  | .phaseLoop [], .go, g => some (.done (.startLoop g.initializedOrder.reverse))
  | .phaseLoop (phase :: phases), .go, _ => some (.done (.round phase phases))
  | .round phase phases, .go, g => some (.done (.scan phase phases g.components {}))
  | .scan phase phases (component :: rest) round, .go, g =>
    some <| scanComponentSteps phase component round g haltSteps fun round =>
      .done (.scan phase phases rest round)
  | .scan phase phases [] round, .go, _ =>
    if round.pendingCount = 0 then some (.done (.phaseLoop phases))
    else
      match round.candidate with
      | none =>
        if round.skippedComponent = true then some (.done (.round phase phases))
        else some (haltSteps .dependency)
      | some candidate =>
        some <| initializeComponentSteps candidate fun ret =>
          if ret ≠ .ok then haltSteps ret else .done (.round phase phases)
  | .startLoop [], .go, _ => some (.done (.idle .started))
  | .startLoop (component :: rest), .go, _ =>
    some <| startComponentSteps component fun ret =>
      if ret ≠ .ok then haltSteps ret else .done (.startLoop rest)
  | .stopLoop caller firstError, .go, g =>
    match g.startedOrder with
    | [] => some (.done (.deinitLoop caller firstError))
    | component :: _ =>
      some <| .write .popStarted <| stopComponentSteps component fun ret =>
        .done (.stopLoop caller (if ret ≠ .ok ∧ firstError = .ok then ret else firstError))
  | .deinitLoop caller ret, .go, g =>
    match g.initializedOrder with
    | [] => some (.done (.idle (caller.returned ret)))
    | component :: _ =>
      some <| .write .popInitialized <|
        deinitializeComponentSteps component (.done (.deinitLoop caller ret))
  | _, _, _ => none

/-- The component framework, started with its static variables zeroed. -/
def lifecycleCode : Code Lifecycle Op Request SysErr Place Input where
  start p g := p = .idle .nothing ∧ g = Lifecycle.zero
  write := Op.apply
  answer r a g := g.record (r.site a)
  enter := enter

/-! ## The machine runs the functions -/

section Runs

variable (cb : Callbacks) (component : ComponentDesc) (g : Lifecycle)

theorem eval_handleDependencyFailureSteps (k : SysErr → Steps) :
    lifecycleCode.eval cb.answer (handleDependencyFailureSteps component k) g =
      lifecycleCode.eval cb.answer (k (handleDependencyFailure component g).1)
        (handleDependencyFailure component g).2 := by
  unfold handleDependencyFailure
  by_cases hreq : component.policy = policyRequired
  · simp only [handleDependencyFailureSteps, Code.eval, if_pos hreq]
    rfl
  · simp only [handleDependencyFailureSteps, Code.eval, if_neg hreq]
    rfl

theorem eval_initializeComponentSteps (k : SysErr → Steps) :
    lifecycleCode.eval cb.answer (initializeComponentSteps component k) g =
      lifecycleCode.eval cb.answer (k (initializeComponent cb component g).1)
        (initializeComponent cb component g).2 := by
  unfold initializeComponent
  by_cases hret : cb.init component.id = .ok
  · simp only [initializeComponentSteps, Code.eval, Callbacks.answer, hret, ne_eq,
      not_true_eq_false, if_false]
    rfl
  · simp only [initializeComponentSteps, Code.eval, Callbacks.answer, ne_eq, hret,
      not_false_eq_true, if_true]
    rfl

theorem eval_scanComponentSteps (phase : Nat) (round : Round) (halt : SysErr → Steps)
    (k : Round → Steps) :
    lifecycleCode.eval cb.answer (scanComponentSteps phase component round g halt k) g =
      lifecycleCode.eval cb.answer
        (if (scanComponent phase component round g).1 ≠ .ok then
          halt (scanComponent phase component round g).1
        else k (scanComponent phase component round g).2.1)
        (scanComponent phase component round g).2.2 := by
  unfold scanComponent scanComponentSteps
  split
  · rfl
  · cases hdeps : checkDependencies g component false with
    | waiting => rfl
    | ready =>
        simp only
        split <;> rfl
    | failed =>
        simp only [eval_handleDependencyFailureSteps]
        split <;> rfl

theorem eval_startComponentSteps (k : SysErr → Steps) :
    lifecycleCode.eval cb.answer (startComponentSteps component k) g =
      lifecycleCode.eval cb.answer (k (startComponent cb component g).1)
        (startComponent cb component g).2 := by
  unfold startComponent startComponentSteps
  by_cases hdeps : checkDependencies g component true = .ready
  · simp only [Code.eval, hdeps, ne_eq, not_true_eq_false, if_false, decide_false,
      Bool.false_eq_true]
    have hres : (Request.start component).result (cb.answer (.start component)) =
      cb.startResult component := rfl
    rw [hres]
    by_cases hret : cb.startResult component = .ok
    · simp only [hret, not_true_eq_false, if_false, Code.eval]
      rw [← hret, ← hres]
      rfl
    · by_cases hreq : component.policy = policyRequired
      · simp only [hret, not_false_eq_true, if_true, Code.eval, hreq]
        rfl
      · simp only [hret, not_false_eq_true, if_true, Code.eval, hreq, if_false, releaseSteps]
        rfl
  · simp only [Code.eval, hdeps, ne_eq, not_false_eq_true, if_true, decide_true,
      eval_handleDependencyFailureSteps]
    by_cases hret : (handleDependencyFailure component g).1 = .ok
    · simp only [hret, if_true, Code.eval, true_and]
      split
      · simp only [releaseSteps, Code.eval]
        rfl
      · rfl
    · simp only [hret, if_false, false_and]

theorem eval_stopComponentSteps (k : SysErr → Steps) :
    lifecycleCode.eval cb.answer (stopComponentSteps component k) g =
      lifecycleCode.eval cb.answer (k (stopComponent cb component g).1)
        (stopComponent cb component g).2 := by
  unfold stopComponent stopComponentSteps
  have hres : (Request.stop component).result (cb.answer (.stop component)) =
    cb.stopResult component := rfl
  simp only [Code.eval, hres]
  split
  · rfl
  · rfl

theorem eval_deinitializeComponentSteps (next : Steps) :
    lifecycleCode.eval cb.answer (deinitializeComponentSteps component next) g =
      lifecycleCode.eval cb.answer next (deinitializeComponent component g) := by
  unfold deinitializeComponent deinitializeComponentSteps
  simp only [Code.eval, releaseSteps]
  split
  · simp only [decide_eq_true_eq]
    -- the test reads the state after the two writes
    split
    · exact congrArg _ (if_pos ‹_›).symm
    · exact congrArg _ (if_neg ‹_›).symm
  · rfl

/-- Where `start_all` is after a part that returned `ret`: in the rollback, or
    at the next place. -/
def Place.after (next : Place) (ret : SysErr) : Place :=
  if ret ≠ .ok then .stopLoop (.startAll ret) .ok else next

theorem eval_after (next : Place) (ret : SysErr) :
    lifecycleCode.eval cb.answer (if ret ≠ .ok then haltSteps ret else .done next) g =
      (next.after ret, g) := by
  unfold Place.after
  split <;> rfl

variable {g}

theorem scanComponents_leads {phase : Nat} {phases : List Nat} {l : List ComponentDesc}
    {round round' : Round} {g' : Lifecycle} {ret : SysErr}
    (h : scanComponents phase l round g = (ret, round', g')) :
    lifecycleCode.Leads (.scan phase phases l round) g
      ((Place.scan phase phases [] round').after ret) g' := by
  -- a scan calls no callback, any answers will do
  have cb := Callbacks.failing [] []
  induction l generalizing round g with
  | nil =>
      obtain ⟨rfl, rfl, rfl⟩ : SysErr.ok = ret ∧ round = round' ∧ g = g' := by
        simpa [scanComponents] using h
      exact Code.Leads.refl _ _ _
  | cons c rest ih =>
      have heval := eval_scanComponentSteps cb c g phase round haltSteps
        fun round => .done (.scan phase phases rest round)
      simp only [scanComponents] at h
      by_cases hret : (scanComponent phase c round g).1 = .ok
      · rw [if_neg (not_not_intro hret)] at h heval
        exact (Code.Leads.enter (i := .go) cb.answer rfl heval).trans (ih h)
      · rw [if_pos hret] at h heval
        obtain ⟨rfl, rfl, rfl⟩ : (scanComponent phase c round g).1 = ret ∧
            (scanComponent phase c round g).2.1 = round' ∧
            (scanComponent phase c round g).2.2 = g' := by
          cases h
          exact ⟨rfl, rfl, rfl⟩
        rw [Place.after, if_pos hret]
        exact Code.Leads.enter (i := .go) cb.answer rfl heval

variable {cb}

theorem initializePhase_leads {phase : Nat} {phases : List Nat} {fuel : Nat}
    {g' : Lifecycle} {ret : SysErr} (h : initializePhase cb phase fuel g = some (ret, g')) :
    lifecycleCode.Leads (.round phase phases) g ((Place.phaseLoop phases).after ret) g' := by
  induction fuel generalizing g with
  | zero => cases h
  | succ fuel ih =>
      -- a round is a scan followed by the step the scan's result asks for
      obtain ⟨e, round, s, hscan⟩ : ∃ e round s,
        scanComponents phase g.components {} g = (e, round, s) := ⟨_, _, _, rfl⟩
      have hround : lifecycleCode.Leads (.round phase phases) g
          ((Place.scan phase phases [] round).after e) s :=
        (Code.Leads.jump (i := .go) rfl).trans (scanComponents_leads hscan)
      apply hround.trans
      simp only [initializePhase, hscan] at h
      by_cases he : e = .ok
      · rw [if_neg (not_not_intro he)] at h
        rw [show (Place.scan phase phases [] round).after e = .scan phase phases [] round from
          if_neg (not_not_intro he)]
        by_cases hcount : round.pendingCount = 0
        · rw [if_pos hcount] at h
          obtain ⟨rfl, rfl⟩ : SysErr.ok = ret ∧ s = g' := by simpa using h
          refine Code.Leads.jump (i := .go) ?_
          simp only [lifecycleCode, enter, if_pos hcount]
          rfl
        · rw [if_neg hcount] at h
          cases hcand : round.candidate with
          | none =>
              simp only [hcand] at h
              by_cases hskip : round.skippedComponent = true
              · rw [if_pos hskip] at h
                refine Code.Leads.trans (Code.Leads.jump (i := .go) ?_) (ih h)
                simp only [lifecycleCode, enter, if_neg hcount, hcand, if_pos hskip]
              · rw [if_neg hskip] at h
                obtain ⟨rfl, rfl⟩ : SysErr.dependency = ret ∧ s = g' := by simpa using h
                refine Code.Leads.jump (i := .go) ?_
                simp only [lifecycleCode, enter, if_neg hcount, hcand, if_neg hskip]
                rfl
          | some candidate =>
              simp only [hcand] at h
              have heval := eval_initializeComponentSteps cb candidate s fun ret =>
                if ret ≠ .ok then haltSteps ret else .done (.round phase phases)
              rw [eval_after] at heval
              have hstep := Code.Leads.enter (i := .go) (p := .scan phase phases [] round)
                cb.answer (by simp only [lifecycleCode, enter, if_neg hcount, hcand]) heval
              by_cases hret : (initializeComponent cb candidate s).1 = .ok
              · rw [if_neg (not_not_intro hret)] at h
                rw [Place.after, if_neg (not_not_intro hret)] at hstep
                exact hstep.trans (ih h)
              · rw [if_pos hret] at h
                obtain ⟨rfl, rfl⟩ : (initializeComponent cb candidate s).1 = ret ∧
                    (initializeComponent cb candidate s).2 = g' := by
                  cases h
                  exact ⟨rfl, rfl⟩
                rw [Place.after, if_pos hret] at hstep ⊢
                exact hstep
      · rw [if_pos he] at h
        obtain ⟨rfl, rfl⟩ : e = ret ∧ s = g' := by simpa using h
        rw [Place.after, Place.after, if_pos he, if_pos he]
        exact Code.Leads.refl _ _ _

theorem initializePhases_leads {phases : List Nat} {g' : Lifecycle} {ret : SysErr}
    (h : initializePhases cb phases g = some (ret, g')) :
    lifecycleCode.Leads (.phaseLoop phases) g ((Place.phaseLoop []).after ret) g' := by
  induction phases generalizing g with
  | nil =>
      obtain ⟨rfl, rfl⟩ : SysErr.ok = ret ∧ g = g' := by simpa [initializePhases] using h
      exact Code.Leads.refl _ _ _
  | cons phase rest ih =>
      have hfirst : lifecycleCode.Leads (.phaseLoop (phase :: rest)) g (.round phase rest) g :=
        Code.Leads.jump (i := .go) rfl
      simp only [initializePhases] at h
      cases hphase : initializePhase cb phase (g.components.length + 1) g with
      | none => simp [hphase] at h
      | some x =>
          obtain ⟨e, s⟩ := x
          have hrun : lifecycleCode.Leads (.round phase rest) g
              ((Place.phaseLoop rest).after e) s := initializePhase_leads hphase
          simp only [hphase] at h
          by_cases he : e = .ok
          · rw [if_neg (not_not_intro he)] at h
            rw [Place.after, if_neg (not_not_intro he)] at hrun
            exact hfirst.trans (hrun.trans (ih h))
          · rw [if_pos he] at h
            obtain ⟨rfl, rfl⟩ : e = ret ∧ s = g' := by simpa using h
            rw [Place.after, if_pos he] at hrun ⊢
            exact hfirst.trans hrun

theorem startComponents_leads {l : List ComponentDesc} {g' : Lifecycle} {ret : SysErr}
    (h : startComponents cb l g = (ret, g')) :
    lifecycleCode.Leads (.startLoop l) g ((Place.startLoop []).after ret) g' := by
  induction l generalizing g with
  | nil =>
      obtain ⟨rfl, rfl⟩ : SysErr.ok = ret ∧ g = g' := by simpa [startComponents] using h
      exact Code.Leads.refl _ _ _
  | cons c rest ih =>
      have heval := eval_startComponentSteps cb c g fun ret =>
        if ret ≠ .ok then haltSteps ret else .done (.startLoop rest)
      rw [eval_after] at heval
      have hstep := Code.Leads.enter (i := .go) (p := .startLoop (c :: rest)) cb.answer rfl heval
      simp only [startComponents] at h
      by_cases hret : (startComponent cb c g).1 = .ok
      · rw [if_neg (not_not_intro hret)] at h
        rw [Place.after, if_neg (not_not_intro hret)] at hstep
        exact hstep.trans (ih h)
      · rw [if_pos hret] at h
        obtain ⟨rfl, rfl⟩ : (startComponent cb c g).1 = ret ∧ (startComponent cb c g).2 = g' := by
          cases h
          exact ⟨rfl, rfl⟩
        rw [Place.after, if_pos hret] at hstep ⊢
        exact hstep

theorem stopLoop_leads {l : List ComponentDesc} {caller : Caller} {e : SysErr}
    (h : g.startedOrder = l) :
    lifecycleCode.Leads (.stopLoop caller e) g
      (.deinitLoop caller (stopLoop cb l e g).1) (stopLoop cb l e g).2 := by
  induction l generalizing e g with
  | nil =>
      refine Code.Leads.jump (i := .go) ?_
      simp only [lifecycleCode, enter, h]
      rfl
  | cons c rest ih =>
      have hpop : Op.popStarted.apply g = { g with startedOrder := rest } := by
        rw [Op.apply, h]
        rfl
      have heval := eval_stopComponentSteps cb c (Op.popStarted.apply g)
        fun ret => .done (.stopLoop caller (if ret ≠ .ok ∧ e = .ok then ret else e))
      rw [hpop] at heval
      have hstep : lifecycleCode.Leads (.stopLoop caller e) g
          (.stopLoop caller
            (if (stopComponent cb c { g with startedOrder := rest }).1 ≠ .ok ∧ e = .ok
              then (stopComponent cb c { g with startedOrder := rest }).1 else e))
          (stopComponent cb c { g with startedOrder := rest }).2 := by
        refine Code.Leads.enter (i := .go) cb.answer (t := .write .popStarted <|
          stopComponentSteps c fun ret =>
            .done (.stopLoop caller (if ret ≠ .ok ∧ e = .ok then ret else e))) ?_ ?_
        · simp only [lifecycleCode, enter, h]
        · rw [Code.eval, show lifecycleCode.write .popStarted g = _ from hpop]
          exact heval
      refine hstep.trans (ih ?_)
      unfold stopComponent
      dsimp only
      split <;> rfl

theorem deinitializeLoop_leads {l : List ComponentDesc} {caller : Caller} {ret : SysErr}
    (h : g.initializedOrder = l) :
    lifecycleCode.Leads (.deinitLoop caller ret) g (.idle (caller.returned ret))
      (deinitializeLoop l g) := by
  induction l generalizing g with
  | nil =>
      refine Code.Leads.jump (i := .go) ?_
      simp only [lifecycleCode, enter, h]
  | cons c rest ih =>
      have hpop : Op.popInitialized.apply g = { g with initializedOrder := rest } := by
        rw [Op.apply, h]
        rfl
      have hstep : lifecycleCode.Leads (.deinitLoop caller ret) g (.deinitLoop caller ret)
          (deinitializeComponent c { g with initializedOrder := rest }) := by
        -- no callback of the deinit pass has a result, any answers will do
        refine Code.Leads.enter (i := .go) (Callbacks.failing [] []).answer
          (t := .write .popInitialized <|
            deinitializeComponentSteps c (.done (.deinitLoop caller ret))) ?_ ?_
        · simp only [lifecycleCode, enter, h]
        · rw [Code.eval, show lifecycleCode.write .popInitialized g = _ from hpop,
            eval_deinitializeComponentSteps]
          rfl
      refine hstep.trans (ih ?_)
      unfold deinitializeComponent
      dsimp only
      split
      · split <;> rfl
      · rfl

theorem rollbackComponents_leads (caller : Caller) (cb : Callbacks) (g : Lifecycle) :
    lifecycleCode.Leads (.stopLoop caller .ok) g
      (.idle (caller.returned (rollbackComponents cb g).1)) (rollbackComponents cb g).2 := by
  have hstop : lifecycleCode.Leads (.stopLoop caller .ok) g
      (.deinitLoop caller (rollbackComponents cb g).1) (stopLoop cb g.startedOrder .ok g).2 :=
    stopLoop_leads rfl
  exact hstop.trans (deinitializeLoop_leads rfl)

/-- How `sys_component_start_all` returned `ret`, which is the error of
    `collect_components` if that failed. -/
def startReturned (sec : LinkSection) (ret : SysErr) (g : Lifecycle) : Returned :=
  if (collectComponents sec g).1 ≠ .ok then .rejected ret
  else if ret ≠ .ok then .rolledBack ret
  else .started

/-- `sys_component_start_all` is a run of the machine. -/
theorem sysComponentStartAll_leads {sec : LinkSection} {ret : SysErr} {g' : Lifecycle}
    (last : Returned) (h : sysComponentStartAll cb sec g = some (ret, g')) :
    lifecycleCode.Leads (.idle last) g (.idle (startReturned sec ret g)) g' := by
  have hcollect : lifecycleCode.Leads (.idle last) g
      (if (collectComponents sec g).1 ≠ .ok then .idle (.rejected (collectComponents sec g).1)
        else .phaseLoop (List.range phaseCount)) (collectComponents sec g).2 :=
    Code.Leads.enter (i := .startAll sec) cb.answer rfl rfl
  simp only [sysComponentStartAll] at h
  unfold startReturned
  by_cases hc : (collectComponents sec g).1 = .ok
  · rw [if_neg (not_not_intro hc)] at h hcollect ⊢
    cases hphases : initializePhases cb (List.range phaseCount) (collectComponents sec g).2 with
    | none => simp [hphases] at h
    | some x =>
        obtain ⟨e, s⟩ := x
        have hinit := hcollect.trans (initializePhases_leads hphases)
        simp only [hphases] at h
        by_cases he : e = .ok
        · rw [if_neg (not_not_intro he)] at h
          rw [Place.after, if_neg (not_not_intro he)] at hinit
          obtain ⟨e', s', hstart⟩ : ∃ e' s',
            startComponents cb s.initializedOrder.reverse s = (e', s') := ⟨_, _, rfl⟩
          have hloop : lifecycleCode.Leads (.phaseLoop []) s
              (.startLoop s.initializedOrder.reverse) s := Code.Leads.jump (i := .go) rfl
          have hrun := hinit.trans (hloop.trans (startComponents_leads hstart))
          simp only [hstart] at h
          by_cases he' : e' = .ok
          · rw [if_neg (not_not_intro he')] at h
            obtain ⟨rfl, rfl⟩ : SysErr.ok = ret ∧ s' = g' := by simpa using h
            rw [Place.after, if_neg (not_not_intro he')] at hrun
            exact hrun.trans (Code.Leads.jump (i := .go) rfl)
          · rw [if_pos he'] at h
            obtain ⟨rfl, rfl⟩ : e' = ret ∧ (rollbackComponents cb s').2 = g' := by simpa using h
            rw [Place.after, if_pos he'] at hrun
            rw [if_pos he']
            exact hrun.trans (rollbackComponents_leads (.startAll e') cb s')
        · rw [if_pos he] at h
          obtain ⟨rfl, rfl⟩ : e = ret ∧ (rollbackComponents cb s).2 = g' := by simpa using h
          rw [Place.after, if_pos he] at hinit
          rw [if_pos he]
          exact hinit.trans (rollbackComponents_leads (.startAll e) cb s)
  · rw [if_pos hc] at h hcollect ⊢
    obtain ⟨rfl, rfl⟩ : (collectComponents sec g).1 = ret ∧ (collectComponents sec g).2 = g' := by
      cases h
      exact ⟨rfl, rfl⟩
    exact hcollect

end Runs

end Component
end AppCore
