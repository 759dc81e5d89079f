/-
  AppCore.Component.Model

  The component life cycle of `core/sys_component.c`: discovery of the linked
  descriptors, validation, the phase-by-phase initialization pass, the start
  pass, and the stop/deinit passes shared by rollback and shutdown.

  A pointer into `g_components` is modelled by the descriptor found there, and
  the mutable part of the slot is looked up by the descriptor's id: ids are
  pairwise distinct once `validate_components` has passed, and no slot is
  written before that.  The two order stacks are lists with the most recently
  pushed component first.  `calls` records every call site of a callback that
  the run passes, in order; a `NULL` start, stop or deinit callback is recorded
  like one that is called (a `NULL` start counts as `SYS_OK`).
-/

import AppCore.Types
import Mathlib.Logic.Function.Basic

namespace AppCore
namespace Component

/-- `sys_component_state_t`. -/
inductive ComponentState where
  | discovered
  | initializing
  | initialized
  | starting
  | running
  | stopping
  | stopped
  | failed
  | skipped
deriving DecidableEq, Repr

/-- `SYS_COMPONENT_PHASE_COUNT`; the phases are `0` (core), `1` (service) and
    `2` (application). -/
abbrev phaseCount : Nat := 3

/-- `SYS_COMPONENT_REQUIRED`. -/
abbrev policyRequired : Nat := 0

/-- `SYS_COMPONENT_OPTIONAL`. -/
abbrev policyOptional : Nat := 1

/-- `SYS_COMPONENT_MAX_COUNT`. -/
abbrev componentMaxCount : Nat := 64

/-- `sys_component_desc_t`.  `phase` and `policy` are the numbers stored in the
    descriptor, which `validate_components` range-checks; of a callback pointer
    only whether it is `NULL` is kept, its result is given by `Callbacks`. -/
structure ComponentDesc where
  id : UInt32
  name : Option String
  phase : Nat
  policy : Nat
  dependencies : List UInt32
  hasInit : Bool
  hasStart : Bool
  hasStop : Bool
  hasDeinit : Bool
deriving DecidableEq, Repr

/-- What the `init`, `start` and `stop` callbacks of each component return. -/
structure Callbacks where
  init : UInt32 → SysErr
  start : UInt32 → SysErr
  stop : UInt32 → SysErr

/-- Callbacks that succeed, but for the init or the start of these components. -/
def Callbacks.failing (inits starts : List UInt32) : Callbacks where
  init id := if id ∈ inits then .generic else .ok
  start id := if id ∈ starts then .generic else .ok
  stop _ := .ok

/-- A callback call site passed by a run, with the id of the component and the
    result (`SYS_OK` for a `NULL` start or stop). -/
inductive Call where
  | init (id : UInt32) (ret : SysErr)
  | start (id : UInt32) (ret : SysErr)
  | stop (id : UInt32) (ret : SysErr)
  | deinit (id : UInt32)
deriving DecidableEq, Repr

/-- The mutable part of `sys_component_runtime_t`. -/
structure ComponentRuntime where
  state : ComponentState := .discovered
  lastError : SysErr := .ok
  initialized : Bool := false
  started : Bool := false
deriving DecidableEq, Repr

/-- The static variables of `sys_component.c`. -/
structure Lifecycle where
  components : List ComponentDesc
  runtime : UInt32 → ComponentRuntime
  initializedOrder : List ComponentDesc
  startedOrder : List ComponentDesc
  calls : List Call

/-- The static variables before the first call. -/
def Lifecycle.zero : Lifecycle where
  components := []
  runtime := fun _ => {}
  initializedOrder := []
  startedOrder := []
  calls := []

/-- `dependency_result_t`. -/
inductive DependencyResult where
  | waiting
  | ready
  | failed
deriving DecidableEq, Repr

/-! ## State updates -/

/-- Write to the slot of the component `id`. -/
def Lifecycle.modify (g : Lifecycle) (id : UInt32)
    (f : ComponentRuntime → ComponentRuntime) : Lifecycle :=
  { g with runtime := Function.update g.runtime id (f (g.runtime id)) }

/-- Record a callback call site. -/
def Lifecycle.record (g : Lifecycle) (call : Call) : Lifecycle :=
  { g with calls := g.calls ++ [call] }

/-- `update_state`. -/
def updateState (id : UInt32) (state : ComponentState) (error : SysErr)
    (g : Lifecycle) : Lifecycle :=
  g.modify id fun c => { c with state := state, lastError := error }

/-- Write to `component->initialized`. -/
def setInitialized (id : UInt32) (b : Bool) (g : Lifecycle) : Lifecycle :=
  g.modify id fun c => { c with initialized := b }

/-- Write to `component->started`. -/
def setStarted (id : UInt32) (b : Bool) (g : Lifecycle) : Lifecycle :=
  g.modify id fun c => { c with started := b }

/-! ## Dependency checks and validation -/

/-- `find_component`. -/
def findComponent (components : List ComponentDesc) (id : UInt32) : Option ComponentDesc :=
  components.find? fun c => c.id = id

/-- The loop of `check_dependencies` over the remaining dependencies. -/
def checkDependencyList (g : Lifecycle) (requireRunning : Bool) :
    List UInt32 → DependencyResult
  | [] => .ready
  | dep :: rest =>
    match findComponent g.components dep with
    | none => .failed
    | some dependency =>
      let slot := g.runtime dependency.id
      if slot.state = .failed ∨ slot.state = .skipped then .failed
      else if requireRunning = true ∧ slot.state ≠ .running then .waiting
      else if requireRunning = false ∧ slot.initialized = false then .waiting
      else checkDependencyList g requireRunning rest

/-- `check_dependencies`. -/
def checkDependencies (g : Lifecycle) (component : ComponentDesc)
    (requireRunning : Bool) : DependencyResult :=
  checkDependencyList g requireRunning component.dependencies

/-- The dependency loop of `validate_components` for one descriptor. -/
def validateDependencies (components : List ComponentDesc) (desc : ComponentDesc) :
    List UInt32 → SysErr
  | [] => .ok
  | dep :: rest =>
    match findComponent components dep with
    | none => .dependency
    | some dependency =>
      if dependency.phase > desc.phase then .dependency
      else validateDependencies components desc rest

/-- The outer loop of `validate_components`, at the remaining slots. -/
def validateFrom (components : List ComponentDesc) : List ComponentDesc → SysErr
  | [] => .ok
  | desc :: rest =>
    if desc.id = 0 ∨ desc.name = none ∨ desc.hasInit = false ∨
        desc.phase ≥ phaseCount ∨ desc.policy > policyOptional then .invalidParam
    else if rest.any fun other => other.id = desc.id then .alreadyExists
    else
      let ret := validateDependencies components desc desc.dependencies
      if ret ≠ .ok then ret else validateFrom components rest

/-- `validate_components`. -/
def validateComponents (components : List ComponentDesc) : SysErr :=
  validateFrom components components

/-- The `sys_components` link section: the addresses `__start_sys_components`
    and `__stop_sys_components`, the size of a descriptor, and the descriptor
    at each index.  The sentinel is one of the entries. -/
structure LinkSection where
  start : Nat
  stop : Nat
  descSize : Nat
  entry : Nat → ComponentDesc

/-- The number of descriptors between the section's bounds. -/
def LinkSection.count (sec : LinkSection) : Nat :=
  (sec.stop - sec.start) / sec.descSize

/-- The descriptors between the section's bounds, in link order. -/
def LinkSection.entries (sec : LinkSection) : List ComponentDesc :=
  (List.range sec.count).map sec.entry

/-- `g_component_sentinel`, the entry that keeps the section from being empty. -/
def componentSentinel : ComponentDesc where
  id := 0
  name := none
  phase := 0
  policy := 0
  dependencies := []
  hasInit := false
  hasStart := false
  hasStop := false
  hasDeinit := false

/-- A descriptor of the core phase with all four callbacks. -/
def ComponentDesc.core (id : UInt32) (policy : Nat) (dependencies : List UInt32) :
    ComponentDesc where
  id := id
  name := some "component"
  phase := 0
  policy := policy
  dependencies := dependencies
  hasInit := true
  hasStart := true
  hasStop := true
  hasDeinit := true

/-- The section with the sentinel followed by these descriptors, one address
    each. -/
def LinkSection.ofList (l : List ComponentDesc) : LinkSection where
  start := 0
  stop := l.length + 1
  descSize := 1
  entry i := (componentSentinel :: l).getD i componentSentinel

/-- `collect_components`. -/
def collectComponents (sec : LinkSection) (g : Lifecycle) : SysErr × Lifecycle :=
  if sec.stop < sec.start ∨ (sec.stop - sec.start) % sec.descSize ≠ 0 then (.state, g)
  else if sec.count > componentMaxCount then (.overflow, g)
  else
    let components := sec.entries.filter fun desc => desc.hasInit
    let g := { g with
      components := components
      runtime := fun _ => {}
      initializedOrder := []
      startedOrder := [] }
    (validateComponents components, g)

/-! ## Initialization -/

/-- `handle_dependency_failure`. -/
def handleDependencyFailure (component : ComponentDesc) (g : Lifecycle) :
    SysErr × Lifecycle :=
  let g := updateState component.id .skipped .dependency g
  if component.policy = policyRequired then (.dependency, g) else (.ok, g)

/-- `initialize_component`. -/
def initializeComponent (cb : Callbacks) (component : ComponentDesc) (g : Lifecycle) :
    SysErr × Lifecycle :=
  let g := updateState component.id .initializing .ok g
  let ret := cb.init component.id
  let g := g.record (.init component.id ret)
  if ret ≠ .ok then
    let g := updateState component.id .failed ret g
    (if component.policy = policyRequired then ret else .ok, g)
  else
    let g := setInitialized component.id true g
    let g := { g with initializedOrder := component :: g.initializedOrder }
    (.ok, updateState component.id .initialized .ok g)

/-- The local variables of one round of `initialize_phase`. -/
structure Round where
  pendingCount : Nat := 0
  skippedComponent : Bool := false
  candidate : Option ComponentDesc := none
deriving DecidableEq, Repr

/-- `candidate == NULL || component->desc->id < candidate->desc->id`. -/
def betterCandidate (component : ComponentDesc) : Option ComponentDesc → Bool
  | none => true
  | some candidate => component.id < candidate.id

/-- The body of the scan in `initialize_phase` for one slot.  A result other
    than `SYS_OK` is returned from `initialize_phase` at once. -/
def scanComponent (phase : Nat) (component : ComponentDesc) (round : Round)
    (g : Lifecycle) : SysErr × Round × Lifecycle :=
  if (g.runtime component.id).state ≠ .discovered ∨ component.phase ≠ phase then
    (.ok, round, g)
  else
    let round := { round with pendingCount := round.pendingCount + 1 }
    match checkDependencies g component false with
    | .failed =>
      let (ret, g) := handleDependencyFailure component g
      if ret ≠ .ok then (ret, round, g)
      else (.ok, { round with skippedComponent := true }, g)
    | .ready =>
      if betterCandidate component round.candidate then
        (.ok, { round with candidate := some component }, g)
      else (.ok, round, g)
    | .waiting => (.ok, round, g)

/-- The scan over the remaining slots of `g_components`. -/
def scanComponents (phase : Nat) : List ComponentDesc → Round → Lifecycle →
    SysErr × Round × Lifecycle
  | [], round, g => (.ok, round, g)
  | component :: rest, round, g =>
    let (ret, round, g) := scanComponent phase component round g
    if ret ≠ .ok then (ret, round, g) else scanComponents phase rest round g

/-- `initialize_phase`; `none` when the `for (;;)` loop has not returned within
    `fuel` rounds. -/
def initializePhase (cb : Callbacks) (phase : Nat) :
    Nat → Lifecycle → Option (SysErr × Lifecycle)
  | 0, _ => none
  | fuel + 1, g =>
    let (ret, round, g) := scanComponents phase g.components {} g
    if ret ≠ .ok then some (ret, g)
    else if round.pendingCount = 0 then some (.ok, g)
    else
      match round.candidate with
      | none =>
        if round.skippedComponent = true then initializePhase cb phase fuel g
        else some (.dependency, g)
      | some candidate =>
        let (ret, g) := initializeComponent cb candidate g
        if ret ≠ .ok then some (ret, g) else initializePhase cb phase fuel g

/-! ## Start -/

/-- The result of the start callback, `SYS_OK` when it is `NULL`. -/
def Callbacks.startResult (cb : Callbacks) (desc : ComponentDesc) : SysErr :=
  if desc.hasStart then cb.start desc.id else .ok

/-- The result of the stop callback, `SYS_OK` when it is `NULL`. -/
def Callbacks.stopResult (cb : Callbacks) (desc : ComponentDesc) : SysErr :=
  if desc.hasStop then cb.stop desc.id else .ok

/-- `start_component`. -/
def startComponent (cb : Callbacks) (component : ComponentDesc) (g : Lifecycle) :
    SysErr × Lifecycle :=
  if checkDependencies g component true ≠ .ready then
    let (ret, g) := handleDependencyFailure component g
    if ret = .ok ∧ (g.runtime component.id).initialized = true then
      (ret, setInitialized component.id false (g.record (.deinit component.id)))
    else (ret, g)
  else
    let g := updateState component.id .starting .ok g
    let ret := cb.startResult component
    let g := g.record (.start component.id ret)
    if ret ≠ .ok then
      let g := updateState component.id .failed ret g
      if component.policy = policyRequired then (ret, g)
      else (.ok, setInitialized component.id false (g.record (.deinit component.id)))
    else
      let g := setStarted component.id true g
      let g := { g with startedOrder := component :: g.startedOrder }
      (.ok, updateState component.id .running .ok g)

/-- The start loop of `sys_component_start_all` over the remaining entries of
    `g_initialized_order`. -/
def startComponents (cb : Callbacks) : List ComponentDesc → Lifecycle → SysErr × Lifecycle
  | [], g => (.ok, g)
  | component :: rest, g =>
    let (ret, g) := startComponent cb component g
    if ret ≠ .ok then (ret, g) else startComponents cb rest g

/-! ## Stop, deinit and rollback -/

/-- One iteration of the loop of `stop_started_components`, for the component
    just popped. -/
def stopComponent (cb : Callbacks) (component : ComponentDesc) (g : Lifecycle) :
    SysErr × Lifecycle :=
  let g := updateState component.id .stopping (g.runtime component.id).lastError g
  let ret := cb.stopResult component
  let g := g.record (.stop component.id ret)
  let g := setStarted component.id false g
  if ret ≠ .ok then (ret, updateState component.id .failed ret g)
  else (.ok, updateState component.id .stopped (g.runtime component.id).lastError g)

/-- The loop of `stop_started_components`; the list is `g_started_order`, top
    first, and `firstError` the error to return. -/
def stopLoop (cb : Callbacks) : List ComponentDesc → SysErr → Lifecycle → SysErr × Lifecycle
  | [], firstError, g => (firstError, g)
  | component :: rest, firstError, g =>
    let (ret, g) := stopComponent cb component { g with startedOrder := rest }
    stopLoop cb rest (if ret ≠ .ok ∧ firstError = .ok then ret else firstError) g

/-- `stop_started_components`. -/
def stopStartedComponents (cb : Callbacks) (g : Lifecycle) : SysErr × Lifecycle :=
  stopLoop cb g.startedOrder .ok g

/-- One iteration of the loop of `deinitialize_components`, for the component
    just popped. -/
def deinitializeComponent (component : ComponentDesc) (g : Lifecycle) : Lifecycle :=
  if (g.runtime component.id).initialized = true then
    let g := setInitialized component.id false (g.record (.deinit component.id))
    let slot := g.runtime component.id
    if slot.state ≠ .failed ∧ slot.state ≠ .skipped then
      updateState component.id .stopped slot.lastError g
    else g
  else g

/-- The loop of `deinitialize_components`; the list is `g_initialized_order`,
    top first. -/
def deinitializeLoop : List ComponentDesc → Lifecycle → Lifecycle
  | [], g => g
  | component :: rest, g =>
    deinitializeLoop rest (deinitializeComponent component { g with initializedOrder := rest })

/-- `deinitialize_components`. -/
def deinitializeComponents (g : Lifecycle) : Lifecycle :=
  deinitializeLoop g.initializedOrder g

/-- `rollback_components`. -/
def rollbackComponents (cb : Callbacks) (g : Lifecycle) : SysErr × Lifecycle :=
  let (ret, g) := stopStartedComponents cb g
  (ret, deinitializeComponents g)

/-! ## Entry points -/

/-- The phase loop of `sys_component_start_all` over the remaining phases,
    without the rollback of its error exit.  Each phase gets one round more
    than there are components. -/
def initializePhases (cb : Callbacks) : List Nat → Lifecycle → Option (SysErr × Lifecycle)
  | [], g => some (.ok, g)
  | phase :: rest, g =>
    match initializePhase cb phase (g.components.length + 1) g with
    | none => none
    | some (ret, g) => if ret ≠ .ok then some (ret, g) else initializePhases cb rest g

/-- `sys_component_start_all`. -/
def sysComponentStartAll (cb : Callbacks) (sec : LinkSection) (g : Lifecycle) :
    Option (SysErr × Lifecycle) :=
  let (ret, g) := collectComponents sec g
  if ret ≠ .ok then some (ret, g)
  else
    match initializePhases cb (List.range phaseCount) g with
    | none => none
    | some (ret, g) =>
      if ret ≠ .ok then some (ret, (rollbackComponents cb g).2)
      else
        let (ret, g) := startComponents cb g.initializedOrder.reverse g
        if ret ≠ .ok then some (ret, (rollbackComponents cb g).2)
        else some (.ok, g)

/-- `sys_component_stop_all`. -/
def sysComponentStopAll (cb : Callbacks) (g : Lifecycle) : SysErr × Lifecycle :=
  rollbackComponents cb g

/-- A whole cycle with an empty call record: `sys_component_start_all`, then
    `sys_component_stop_all` if it returned `SYS_OK`.  The first two results are
    the error code and the state `start_all` left, the third the final state. -/
def lifecycleRun (cb : Callbacks) (sec : LinkSection) (g : Lifecycle) :
    Option (SysErr × Lifecycle × Lifecycle) :=
  match sysComponentStartAll cb sec { g with calls := [] } with
  | none => none
  | some (ret, g) =>
    if ret = .ok then some (ret, g, (sysComponentStopAll cb g).2) else some (ret, g, g)

end Component
end AppCore
