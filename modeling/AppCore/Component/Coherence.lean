/-
  AppCore.Component.Coherence

  What holds of the component table at every point of every run: the legal state
  changes, the error a slot shows, and that nobody is up without its
  dependencies.  The invariant of the loop heads ties the two order stacks to
  the slots and to the dependency edges; each lifecycle step is executed once,
  write by write, from it.
-/

import AppCore.Component.Graph
import AppCore.Component.Program

namespace AppCore
namespace Component

/-- The state changes of `update_state`. -/
def transitions : ComponentState → List ComponentState
  | .discovered => [.initializing, .skipped]
  | .initializing => [.initialized, .failed]
  | .initialized => [.starting, .skipped, .stopped]
  | .starting => [.running, .failed]
  | .running => [.stopping]
  | .stopping => [.stopped, .failed]
  | .stopped => [.stopped]
  | .failed => []
  | .skipped => []

/-- STARTING, RUNNING or STOPPING. -/
def Active (s : ComponentState) : Prop := s = .starting ∨ s = .running ∨ s = .stopping

instance (s : ComponentState) : Decidable (Active s) := inferInstanceAs (Decidable (_ ∨ _))

/-- The dependencies of a component that is up are RUNNING. -/
def DependenciesRunning (g : Lifecycle) : Prop :=
  ∀ c ∈ g.components, Active (g.runtime c.id).state →
    ∀ d ∈ c.dependencies, (g.runtime d).state = .running

/-- What the init, start or stop callback of `id` returned at a call site. -/
def Call.returned (id : UInt32) : Call → Option SysErr
  | .init i ret => if i = id then some ret else none
  | .start i ret => if i = id then some ret else none
  | .stop i ret => if i = id then some ret else none
  | .deinit _ => none

/-- What the callback of `id` that was called last returned. -/
def lastReturn (calls : List Call) (id : UInt32) : Option SysErr :=
  (calls.filterMap (Call.returned id)).getLast?

/-- The error a slot shows is that of its state: its own callback's when FAILED, the
    dependency error when SKIPPED, none otherwise. -/
structure ErrorCoherent (calls : List Call) (id : UInt32) (slot : ComponentRuntime) : Prop where
  error_iff : slot.lastError ≠ .ok ↔ slot.state = .failed ∨ slot.state = .skipped
  failed : slot.state = .failed → lastReturn calls id = some slot.lastError
  skipped : slot.state = .skipped → slot.lastError = .dependency

/-- What holds at every point. -/
structure Good (g : Lifecycle) : Prop where
  dependencies : DependenciesRunning g
  errors : ∀ i, ErrorCoherent g.calls i (g.runtime i)

/-! ## The state inside a lifecycle step -/

/-- `g` in a step of the component `id`: its slot and the call record have changed. -/
def Lifecycle.busy (g : Lifecycle) (id : UInt32) (slot : ComponentRuntime)
    (calls : List Call) : Lifecycle :=
  { g with runtime := Function.update g.runtime id slot, calls := g.calls ++ calls }

section Busy

variable (g : Lifecycle) (id : UInt32) (slot : ComponentRuntime) (calls : List Call)

theorem Lifecycle.busy_self : g.busy id (g.runtime id) [] = g := by
  simp [Lifecycle.busy]

@[simp] theorem Lifecycle.busy_runtime_self : (g.busy id slot calls).runtime id = slot :=
  Function.update_self ..

theorem Lifecycle.busy_runtime_of_ne {i : UInt32} (h : i ≠ id) :
    (g.busy id slot calls).runtime i = g.runtime i :=
  Function.update_of_ne h ..

@[simp] theorem Lifecycle.busy_components : (g.busy id slot calls).components = g.components := rfl
@[simp] theorem Lifecycle.busy_initializedOrder :
    (g.busy id slot calls).initializedOrder = g.initializedOrder := rfl
@[simp] theorem Lifecycle.busy_startedOrder :
    (g.busy id slot calls).startedOrder = g.startedOrder := rfl
@[simp] theorem Lifecycle.busy_calls : (g.busy id slot calls).calls = g.calls ++ calls := rfl

theorem Lifecycle.modify_busy (f : ComponentRuntime → ComponentRuntime) :
    (g.busy id slot calls).modify id f = g.busy id (f slot) calls := by
  simp [Lifecycle.modify, Lifecycle.busy]

@[simp] theorem write_update (state : ComponentState) (error : SysErr) :
    lifecycleCode.write (.update id state error) (g.busy id slot calls) =
      g.busy id { slot with state := state, lastError := error } calls :=
  g.modify_busy id slot calls fun s => { s with state := state, lastError := error }

@[simp] theorem write_keep (state : ComponentState) :
    lifecycleCode.write (.keep id state) (g.busy id slot calls) =
      g.busy id { slot with state := state } calls := by
  have hslot := g.modify_busy id slot calls fun s =>
    { s with state := state, lastError := ((g.busy id slot calls).runtime id).lastError }
  exact hslot.trans (by rw [Lifecycle.busy_runtime_self])

@[simp] theorem write_setInitialized (b : Bool) :
    lifecycleCode.write (.setInitialized id b) (g.busy id slot calls) =
      g.busy id { slot with initialized := b } calls :=
  g.modify_busy id slot calls fun s => { s with initialized := b }

@[simp] theorem write_setStarted (b : Bool) :
    lifecycleCode.write (.setStarted id b) (g.busy id slot calls) =
      g.busy id { slot with started := b } calls :=
  g.modify_busy id slot calls fun s => { s with started := b }

@[simp] theorem write_pushInitialized (c : ComponentDesc) :
    lifecycleCode.write (.pushInitialized c) (g.busy id slot calls) =
      { g with initializedOrder := c :: g.initializedOrder }.busy id slot calls := rfl

@[simp] theorem write_pushStarted (c : ComponentDesc) :
    lifecycleCode.write (.pushStarted c) (g.busy id slot calls) =
      { g with startedOrder := c :: g.startedOrder }.busy id slot calls := rfl

@[simp] theorem write_deinit :
    lifecycleCode.write (.deinit id) (g.busy id slot calls) =
      g.busy id slot (calls ++ [.deinit id]) := by
  show (g.busy id slot calls).record _ = _
  simp [Lifecycle.record, Lifecycle.busy]

@[simp] theorem answer_busy (r : Request) (a : SysErr) :
    lifecycleCode.answer r a (g.busy id slot calls) = g.busy id slot (calls ++ [r.site a]) := by
  show (g.busy id slot calls).record _ = _
  simp [Lifecycle.record, Lifecycle.busy]

end Busy

/-! ## Every point of a step -/

/-- No component that is up depends on `id`. -/
def Unused (g : Lifecycle) (id : UInt32) : Prop :=
  ∀ e ∈ g.components, e.id ≠ id → Active (g.runtime e.id).state → id ∉ e.dependencies

/-- All dependencies are RUNNING, and none is the component itself. -/
def Supported (g : Lifecycle) (c : ComponentDesc) : Prop :=
  ∀ d ∈ c.dependencies, (g.runtime d).state = .running ∧ d ≠ c.id

theorem lastReturn_append_of_none {calls calls' : List Call} {id : UInt32}
    (h : calls'.filterMap (Call.returned id) = []) :
    lastReturn (calls ++ calls') id = lastReturn calls id := by
  rw [lastReturn, List.filterMap_append, h, List.append_nil, lastReturn]

theorem ErrorCoherent.congr {calls calls' : List Call} {id : UInt32}
    {slot slot' : ComponentRuntime} (h : ErrorCoherent calls id slot)
    (hlast : lastReturn calls' id = lastReturn calls id) (hstate : slot'.state = slot.state)
    (herr : slot'.lastError = slot.lastError) : ErrorCoherent calls' id slot' := by
  constructor
  · rw [herr, hstate]; exact h.error_iff
  · rw [herr, hstate, hlast]; exact h.failed
  · rw [herr, hstate]; exact h.skipped

/-- The good properties only look at states, errors and callback results. -/
theorem Good.congr {g g' : Lifecycle} (h : Good g) (hcomps : g'.components = g.components)
    (hlast : ∀ i, lastReturn g'.calls i = lastReturn g.calls i)
    (hslot : ∀ i, (g'.runtime i).state = (g.runtime i).state ∧
      (g'.runtime i).lastError = (g.runtime i).lastError) : Good g' := by
  constructor
  · intro e he hup d hd
    rw [(hslot e.id).1] at hup
    rw [hcomps] at he
    rw [(hslot d).1]
    exact h.dependencies e he hup d hd
  · exact fun i => (h.errors i).congr (hlast i) (hslot i).1 (hslot i).2

/-- Within a step of `c` the good properties only depend on the slot of `c`. -/
theorem Good.busy {g : Lifecycle} {c : ComponentDesc} {slot : ComponentRuntime}
    {calls : List Call} (h : Good g) (hunused : Unused g c.id)
    (hcalls : ∀ i, i ≠ c.id → calls.filterMap (Call.returned i) = [])
    (herror : ErrorCoherent (g.calls ++ calls) c.id slot)
    (hactive : Active slot.state → Supported g c)
    (hnd : Active slot.state → ∀ e ∈ g.components, e.id = c.id → e = c) :
    Good (g.busy c.id slot calls) := by
  constructor
  · intro e he hup d hd
    by_cases hid : e.id = c.id
    · rw [hid, Lifecycle.busy_runtime_self] at hup
      obtain rfl := hnd hup e he hid
      obtain ⟨hrun, hne⟩ := hactive hup d hd
      rw [Lifecycle.busy_runtime_of_ne _ _ _ _ hne]
      exact hrun
    · rw [Lifecycle.busy_runtime_of_ne _ _ _ _ hid] at hup
      have hne : d ≠ c.id := by
        rintro rfl
        exact hunused e he hid hup hd
      rw [Lifecycle.busy_runtime_of_ne _ _ _ _ hne]
      exact h.dependencies e he hup d hd
  · intro i
    by_cases hid : i = c.id
    · subst hid
      rw [Lifecycle.busy_runtime_self]
      exact herror
    · rw [Lifecycle.busy_runtime_of_ne _ _ _ _ hid, Lifecycle.busy_calls]
      exact (h.errors i).congr (lastReturn_append_of_none (hcalls i hid)) rfl rfl

theorem ErrorCoherent.of_ok {calls : List Call} {id : UInt32} {slot : ComponentRuntime}
    (herr : slot.lastError = .ok) (hf : slot.state ≠ .failed) (hs : slot.state ≠ .skipped) :
    ErrorCoherent calls id slot where
  error_iff := ⟨fun h => absurd herr h, fun h => by rcases h with h | h <;> contradiction⟩
  failed h := absurd h hf
  skipped h := absurd h hs

theorem ErrorCoherent.of_failed {calls : List Call} {id : UInt32} {slot : ComponentRuntime}
    {ret : SysErr} (hret : ret ≠ .ok) (herr : slot.lastError = ret) (hf : slot.state = .failed)
    (hlast : lastReturn calls id = some ret) : ErrorCoherent calls id slot where
  error_iff := ⟨fun _ => Or.inl hf, fun _ => by rwa [herr]⟩
  failed _ := by rw [herr]; exact hlast
  skipped h := by rw [hf] at h; cases h

theorem ErrorCoherent.of_skipped {calls : List Call} {id : UInt32} {slot : ComponentRuntime}
    (herr : slot.lastError = .dependency) (hs : slot.state = .skipped) :
    ErrorCoherent calls id slot where
  error_iff := ⟨fun _ => Or.inr hs, fun _ => by rw [herr]; decide⟩
  failed h := by rw [hs] at h; cases h
  skipped _ := herr

/-! ## The loop heads -/

/-- A stack of components of the table, top first, whose dependencies lie below them. -/
structure Ordered (comps l : List ComponentDesc) : Prop where
  mem : ∀ c ∈ l, c ∈ comps
  nodup : (ids l).Nodup
  closed : ∀ above c below, l = above ++ c :: below → ∀ d ∈ c.dependencies, d ∈ ids below

/-- A slot no lifecycle step is working on. -/
structure SlotSettled (slot : ComponentRuntime) : Prop where
  settled : slot.state ≠ .initializing ∧ slot.state ≠ .starting ∧ slot.state ≠ .stopping
  started_iff : slot.started = true ↔ slot.state = .running
  initialized_flag : slot.state = .initialized → slot.initialized = true
  discovered_flag : slot.state = .discovered → slot.initialized = false

/-- What holds between lifecycle steps. -/
structure Coherent (g : Lifecycle) : Prop where
  slots : ∀ i, SlotSettled (g.runtime i)
  initialized_order : Ordered g.components g.initializedOrder
  started_order : Ordered g.components g.startedOrder
  running_iff : ∀ i, (g.runtime i).state = .running ↔ i ∈ ids g.startedOrder
  initialized_mem : ∀ i, (g.runtime i).state = .initialized → i ∈ ids g.initializedOrder
  accepted : g.startedOrder ≠ [] → Accepted g.components

/-- The initialization pass: nothing is started, and the initialized components are those
    on the stack. -/
structure Initializing (g : Lifecycle) : Prop where
  coherent : Coherent g
  accepted : Accepted g.components
  none_started : g.startedOrder = []
  flag_iff : ∀ i, (g.runtime i).initialized = true ↔ i ∈ ids g.initializedOrder
  initialized : ∀ i ∈ ids g.initializedOrder, (g.runtime i).state = .initialized

/-- A scan with these slots to go: the candidate lies behind it and is ready. -/
structure Scanning (g : Lifecycle) (rest : List ComponentDesc) (round : Round) : Prop where
  suffix : ∃ front, g.components = front ++ rest
  candidate : ∀ c, round.candidate = some c →
    c ∈ g.components ∧ c.id ∉ ids rest ∧ (g.runtime c.id).state = .discovered ∧
      ∀ d ∈ c.dependencies, (g.runtime d).initialized = true

/-- The start pass with these components to go: those before them in the order are
    RUNNING, FAILED or SKIPPED. -/
structure Starting (g : Lifecycle) (rest : List ComponentDesc) : Prop where
  coherent : Coherent g
  accepted : Accepted g.components
  order : ∃ front, g.initializedOrder.reverse = front ++ rest ∧
    ∀ c ∈ front, (g.runtime c.id).state = .running ∨ (g.runtime c.id).state = .failed ∨
      (g.runtime c.id).state = .skipped
  waiting : ∀ c ∈ rest, (g.runtime c.id).state = .initialized

/-- `start_all` returned an error after its rollback, or `stop_all` returned. -/
def Returned.Finished (last : Returned) : Prop :=
  ∃ ret, last = .rolledBack ret ∨ last = .stopped ret

/-- What holds at the loop heads and at rest. -/
def PlaceInv : Place → Lifecycle → Prop
  | .idle last, g =>
    Coherent g ∧ (last.Finished → g.startedOrder = [] ∧ g.initializedOrder = [])
  | .phaseLoop _, g => Initializing g
  | .round _ _, g => Initializing g
  | .scan _ _ rest round, g => Initializing g ∧ Scanning g rest round
  | .startLoop rest, g => Starting g rest
  | .stopLoop _ _, g => Coherent g
  | .deinitLoop _ _, g => Coherent g ∧ g.startedOrder = []

/-- The slot and the state an `update_state` writes. -/
def Op.writes : Op → Option (UInt32 × ComponentState)
  | .update id state _ => some (id, state)
  | .keep id state => some (id, state)
  | _ => none

/-- What the callback may rely on: initialized dependencies at its init, running ones
    at its start. -/
def Request.Allowed (g : Lifecycle) : Request → Prop
  | .init c => ∀ d ∈ c.dependencies, (g.runtime d).initialized = true
  | .start c => ∀ d ∈ c.dependencies, (g.runtime d).state = .running
  | .stop _ => True

/-- The contract of the component framework. -/
def lifecycleContract : Contract Lifecycle Op Request Place where
  good := Good
  write o g := ∀ id state, o.writes = some (id, state) →
    state ∈ transitions (g.runtime id).state
  call r g := r.Allowed g
  place := PlaceInv

section Stacks

variable {comps l : List ComponentDesc} {c : ComponentDesc}

theorem Ordered.nil (comps : List ComponentDesc) : Ordered comps [] where
  mem _ h := (List.not_mem_nil h).elim
  nodup := List.nodup_nil
  closed above _ _ h := by
    cases above <;> cases h

theorem Ordered.cons (h : Ordered comps l) (hc : c ∈ comps) (hid : c.id ∉ ids l)
    (hdeps : ∀ d ∈ c.dependencies, d ∈ ids l) : Ordered comps (c :: l) where
  mem e he := by
    rcases List.mem_cons.mp he with rfl | he
    · exact hc
    · exact h.mem e he
  nodup := List.nodup_cons.mpr ⟨hid, h.nodup⟩
  closed above e below heq := by
    cases above with
    | nil =>
        obtain ⟨rfl, rfl⟩ := List.cons.inj heq
        exact hdeps
    | cons a above => exact h.closed above e below (List.cons.inj heq).2

theorem Ordered.tail (h : Ordered comps (c :: l)) : Ordered comps l where
  mem e he := h.mem e (List.mem_cons_of_mem _ he)
  nodup := (List.nodup_cons.mp h.nodup).2
  closed above e below heq := h.closed (c :: above) e below (by rw [heq]; rfl)

theorem Ordered.head_not_mem (h : Ordered comps (c :: l)) : c.id ∉ ids l :=
  (List.nodup_cons.mp h.nodup).1

/-- Nothing on the stack depends on what lies above it. -/
theorem Ordered.not_dependency (h : Ordered comps (c :: l)) {e : ComponentDesc} (he : e ∈ c :: l) :
    c.id ∉ e.dependencies := by
  intro hd
  obtain ⟨above, below, heq⟩ := List.append_of_mem he
  have hbelow : c.id ∈ ids below := h.closed above e below heq _ hd
  apply h.head_not_mem
  cases above with
  | nil =>
      obtain ⟨-, rfl⟩ := List.cons.inj heq
      exact hbelow
  | cons a above =>
      obtain ⟨-, rfl⟩ := List.cons.inj heq
      show c.id ∈ ids (above ++ e :: below)
      rw [ids, List.map_append]
      exact List.mem_append_right _ (List.mem_cons_of_mem _ hbelow)

end Stacks

/-- A lifecycle step of one component keeps everything settled if it leaves that component
    settled and in the right stacks. -/
theorem Coherent.step {g g' : Lifecycle} (h : Coherent g) (id : UInt32)
    (hslots : ∀ i, i ≠ id → g'.runtime i = g.runtime i)
    (hslot : SlotSettled (g'.runtime id))
    (hinit : Ordered g'.components g'.initializedOrder)
    (hstarted : Ordered g'.components g'.startedOrder)
    (hinit_mem : ∀ i, i ≠ id → i ∈ ids g.initializedOrder → i ∈ ids g'.initializedOrder)
    (hstarted_mem : ∀ i, i ≠ id → (i ∈ ids g.startedOrder ↔ i ∈ ids g'.startedOrder))
    (hrunning : (g'.runtime id).state = .running ↔ id ∈ ids g'.startedOrder)
    (hinitialized : (g'.runtime id).state = .initialized → id ∈ ids g'.initializedOrder)
    (hacc : g'.startedOrder ≠ [] → Accepted g'.components) : Coherent g' where
  slots i := by
    by_cases hi : i = id
    · rw [hi]; exact hslot
    · rw [hslots i hi]; exact h.slots i
  initialized_order := hinit
  started_order := hstarted
  running_iff i := by
    by_cases hi : i = id
    · rw [hi]; exact hrunning
    · rw [hslots i hi, h.running_iff i]; exact hstarted_mem i hi
  initialized_mem i hst := by
    by_cases hi : i = id
    · rw [hi] at hst ⊢; exact hinitialized hst
    · rw [hslots i hi] at hst
      exact hinit_mem i hi (h.initialized_mem i hst)
  accepted := hacc

end Component
end AppCore
