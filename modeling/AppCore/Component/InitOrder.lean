/-
  AppCore.Component.InitOrder

  The order in which `start_all` calls the inits and the starts.  A scan keeps the least
  component that is ready among the slots it has passed; what it skips on the way was not
  ready, and a skip makes nobody ready.
-/

import AppCore.Component.Status

namespace AppCore
namespace Component

/-- The initialization pass is done with a component in this state. -/
def Resolved (s : ComponentState) : Prop := s = .initialized ∨ s = .failed ∨ s = .skipped

/-- All dependencies of the component are initialized. -/
def DependenciesInitialized (g : Lifecycle) (c : ComponentDesc) : Prop :=
  ∀ d ∈ c.dependencies, (g.runtime d).initialized = true

/-- The component, whose init is called, is the least of its phase that is ready, and the
    phases before it are done. -/
structure LeastReady (g : Lifecycle) (c : ComponentDesc) : Prop where
  mem : c ∈ g.components
  called : (g.runtime c.id).state = .initializing
  ready : DependenciesInitialized g c
  least : ∀ e ∈ g.components, e.phase = c.phase → (g.runtime e.id).state = .discovered →
    DependenciesInitialized g e → c.id < e.id
  lower : ∀ e ∈ g.components, e.phase < c.phase → Resolved (g.runtime e.id).state

/-- The component, whose start is called, has its turn: those before it in the initialized
    order have had theirs, and those after it have not. -/
def StartTurn (g : Lifecycle) (c : ComponentDesc) : Prop :=
  ∃ front rest, g.initializedOrder.reverse = front ++ c :: rest ∧
    (g.runtime c.id).state = .starting ∧
    (∀ e ∈ front, (g.runtime e.id).state = .running ∨ (g.runtime e.id).state = .failed ∨
      (g.runtime e.id).state = .skipped) ∧
    ∀ e ∈ rest, (g.runtime e.id).state = .initialized

/-! ## The invariant of the loop heads -/

/-- Every component is untouched or done with, and those of the phases below `phase` are done
    with. -/
structure PhaseOrder (g : Lifecycle) (phase : Nat) : Prop where
  states : ∀ i, (g.runtime i).state = .discovered ∨ Resolved (g.runtime i).state
  lower : ∀ e ∈ g.components, e.phase < phase → Resolved (g.runtime e.id).state

/-- A scan with these slots to go: the candidate is the least ready component so far. -/
structure ScanOrder (g : Lifecycle) (phase : Nat) (rest : List ComponentDesc) (round : Round) :
    Prop where
  least : ∀ e ∈ g.components, e.id ∉ ids rest → e.phase = phase →
    (g.runtime e.id).state = .discovered → DependenciesInitialized g e →
    ∃ c, round.candidate = some c ∧ c.id ≤ e.id
  phase_eq : ∀ c, round.candidate = some c → c.phase = phase
  none_pending : round.pendingCount = 0 → ∀ e ∈ g.components, e.id ∉ ids rest →
    e.phase = phase → (g.runtime e.id).state ≠ .discovered

/-- What holds at the loop heads of the initialization pass. -/
def OrderInv : Place → Lifecycle → Prop
  | .phaseLoop phases, g =>
    ∃ k, phases = List.range' k (phaseCount - k) ∧ k ≤ phaseCount ∧ PhaseOrder g k
  | .round phase phases, g =>
    phases = List.range' (phase + 1) (phaseCount - (phase + 1)) ∧ phase < phaseCount ∧
      PhaseOrder g phase
  | .scan phase phases rest round, g =>
    phases = List.range' (phase + 1) (phaseCount - (phase + 1)) ∧ phase < phaseCount ∧
      PhaseOrder g phase ∧ ScanOrder g phase rest round
  | _, _ => True

/-- The order of the callbacks. -/
def Request.InOrder (g : Lifecycle) : Request → Prop
  | .init c => LeastReady g c
  | .start c => StartTurn g c
  | .stop _ => True

/-- The contract about the order. -/
def orderContract : Contract Lifecycle Op Request Place where
  good _ := True
  write _ _ := True
  call r g := r.InOrder g
  place := OrderInv

section Steps

variable {g : Lifecycle} {c : ComponentDesc} {slot : ComponentRuntime} {calls : List Call}
  {phase : Nat} {rest : List ComponentDesc} {round : Round}

/-- A component whose dependencies are all initialized does not wait. -/
theorem checkDependencyList_waiting {deps : List UInt32}
    (h : checkDependencyList g false deps = .waiting) :
    ∃ d ∈ deps, (g.runtime d).initialized = false := by
  induction deps with
  | nil => cases h
  | cons x rest ih =>
      simp only [checkDependencyList] at h
      cases hfind : findComponent g.components x with
      | none => simp [hfind] at h
      | some e =>
          simp only [hfind, true_and] at h
          obtain rfl := (findComponent_eq_some hfind).2
          split at h
          · cases h
          rw [if_neg (by simp)] at h
          split at h
          · rename_i _ hflag
            exact ⟨e.id, List.mem_cons_self, hflag⟩
          · obtain ⟨d, hd, hflag⟩ := ih h
            exact ⟨d, List.mem_cons_of_mem _ hd, hflag⟩

/-- Marking `c` SKIPPED or FAILED, or initialized, changes nobody else. -/
theorem PhaseOrder.busy (h : PhaseOrder g phase) (hslot : Resolved slot.state) :
    PhaseOrder (g.busy c.id slot calls) phase := by
  constructor
  · intro i
    by_cases hi : i = c.id
    · rw [hi, Lifecycle.busy_runtime_self]
      exact Or.inr hslot
    · rw [Lifecycle.busy_runtime_of_ne _ _ _ _ hi]
      exact h.states i
  · intro e he hlt
    by_cases hi : e.id = c.id
    · rw [hi, Lifecycle.busy_runtime_self]
      exact hslot
    · rw [Lifecycle.busy_runtime_of_ne _ _ _ _ hi]
      exact h.lower e he hlt

/-- The flags that readiness depends on. -/
theorem dependenciesInitialized_busy (hflag : slot.initialized = (g.runtime c.id).initialized)
    (e : ComponentDesc) :
    DependenciesInitialized (g.busy c.id slot calls) e ↔ DependenciesInitialized g e := by
  have hsame : ∀ d, ((g.busy c.id slot calls).runtime d).initialized =
      (g.runtime d).initialized := by
    intro d
    by_cases hd : d = c.id
    · rw [hd, Lifecycle.busy_runtime_self]
      exact hflag
    · rw [Lifecycle.busy_runtime_of_ne _ _ _ _ hd]
  constructor
  · intro h d hd
    rw [← hsame]
    exact h d hd
  · intro h d hd
    rw [hsame]
    exact h d hd

/-- The scan goes past the slot `c`. -/
theorem ScanOrder.pass {g' : Lifecycle} {round' : Round} (h : ScanOrder g phase (c :: rest) round)
    (hacc : Accepted g.components) (hc : c ∈ g.components)
    (hcomps : g'.components = g.components)
    (hstate : ∀ i, i ≠ c.id → (g'.runtime i).state = (g.runtime i).state)
    (hready : ∀ e, DependenciesInitialized g' e → DependenciesInitialized g e)
    (hcand : ∀ x, round.candidate = some x → ∃ y, round'.candidate = some y ∧ y.id ≤ x.id)
    (hphase : ∀ x, round'.candidate = some x → x.phase = phase)
    (hpending : round'.pendingCount = 0 →
      round.pendingCount = 0 ∧ (c.phase = phase → (g'.runtime c.id).state ≠ .discovered))
    (hown : c.phase = phase → (g'.runtime c.id).state = .discovered →
      DependenciesInitialized g' c → ∃ y, round'.candidate = some y ∧ y.id ≤ c.id) :
    ScanOrder g' phase rest round' := by
  have hpassed : ∀ e ∈ g.components, e.id ≠ c.id → e.id ∉ ids rest → e.id ∉ ids (c :: rest) := by
    intro e _ hne hrest hmem
    rcases List.mem_cons.mp hmem with heq | hmem
    · exact hne heq
    · exact hrest hmem
  refine ⟨fun e he hrest hph hst hdeps => ?_, hphase, fun hzero e he hrest hph => ?_⟩
  · rw [hcomps] at he
    by_cases hid : e.id = c.id
    · obtain rfl := eq_of_id_eq hacc.nodup he hc hid
      exact hown hph hst hdeps
    · rw [hstate e.id hid] at hst
      obtain ⟨x, hx, hle⟩ := h.least e he (hpassed e he hid hrest) hph hst (hready e hdeps)
      obtain ⟨y, hy, hle'⟩ := hcand x hx
      exact ⟨y, hy, UInt32.le_trans hle' hle⟩
  · rw [hcomps] at he
    obtain ⟨hzero', hcstate⟩ := hpending hzero
    by_cases hid : e.id = c.id
    · obtain rfl := eq_of_id_eq hacc.nodup he hc hid
      exact hcstate hph
    · rw [hstate e.id hid]
      exact h.none_pending hzero' e he (hpassed e he hid hrest) hph

theorem wp_scanComponent_order {phases : List Nat} (hini : Initializing g)
    (hscan : Scanning g (c :: rest) round)
    (hphases : phases = List.range' (phase + 1) (phaseCount - (phase + 1)))
    (hlt : phase < phaseCount) (hphase : PhaseOrder g phase)
    (horder : ScanOrder g phase (c :: rest) round) :
    lifecycleCode.wp orderContract (scanComponentSteps phase c round g haltSteps fun round =>
      .done (.scan phase phases rest round)) g := by
  have hacc := hini.accepted
  have hc : c ∈ g.components := by
    obtain ⟨front, hfront⟩ := hscan.suffix
    rw [hfront]
    exact List.mem_append_right _ List.mem_cons_self
  have hkeep : ∀ x, round.candidate = some x → ∃ y, round.candidate = some y ∧ y.id ≤ x.id :=
    fun x hx => ⟨x, hx, UInt32.le_refl _⟩
  unfold scanComponentSteps
  split
  · rename_i hother
    refine ⟨trivial, hphases, hlt, hphase, ?_⟩
    refine horder.pass hacc hc rfl (fun _ _ => rfl) (fun _ h => h) hkeep horder.phase_eq
      (fun hzero => ⟨hzero, fun hph hst => ?_⟩) fun hph hst _ => ?_
    · exact hother.elim (fun h => h hst) fun h => h hph
    · exact (hother.elim (fun h => h hst) fun h => h hph).elim
  rename_i hstate
  obtain ⟨hst, hph⟩ : (g.runtime c.id).state = .discovered ∧ c.phase = phase := by
    simpa [not_or] using hstate
  have hcount : ∀ {p : Prop}, round.pendingCount + 1 = 0 → p := by
    intro p hzero
    omega
  cases hdeps : checkDependencies g c false with
  | waiting =>
      refine ⟨trivial, hphases, hlt, hphase, ?_⟩
      refine horder.pass hacc hc rfl (fun _ _ => rfl) (fun _ h => h) hkeep horder.phase_eq
        hcount fun _ _ hready => ?_
      obtain ⟨d, hd, hflag⟩ := checkDependencyList_waiting hdeps
      rw [hready d hd] at hflag
      cases hflag
  | failed =>
      -- the component is marked SKIPPED, which makes nobody ready
      dsimp only
      refine ⟨trivial, trivial, ?_⟩
      have hwrite := write_update g c.id (g.runtime c.id) [] .skipped .dependency
      rw [Lifecycle.busy_self] at hwrite
      rw [hwrite]
      split
      · exact ⟨trivial, trivial⟩
      · refine ⟨trivial, hphases, hlt, hphase.busy (Or.inr (Or.inr rfl)), ?_⟩
        refine horder.pass hacc hc rfl (fun i hi => ?_) (fun e => ?_) hkeep horder.phase_eq
          hcount fun _ hst' _ => ?_
        · rw [Lifecycle.busy_runtime_of_ne _ _ _ _ hi]
        · refine (dependenciesInitialized_busy ?_ e).mp
          rfl
        · rw [Lifecycle.busy_runtime_self] at hst'
          cases hst'
  | ready =>
      dsimp only
      split
      · rename_i hbetter
        refine ⟨trivial, hphases, hlt, hphase, ?_⟩
        refine horder.pass hacc hc rfl (fun _ _ => rfl) (fun _ h => h) (fun x hx => ?_)
          (fun x hx => ?_) hcount fun _ _ _ => ⟨c, rfl, UInt32.le_refl _⟩
        · rw [hx] at hbetter
          have hless : c.id < x.id := of_decide_eq_true hbetter
          exact ⟨c, rfl, UInt32.le_of_lt hless⟩
        · obtain rfl : c = x := Option.some.inj hx
          exact hph
      · rename_i hworse
        refine ⟨trivial, hphases, hlt, hphase, ?_⟩
        refine horder.pass hacc hc rfl (fun _ _ => rfl) (fun _ h => h) hkeep horder.phase_eq
          hcount fun _ _ _ => ?_
        cases hcand : round.candidate with
        | none =>
            rw [hcand] at hworse
            exact absurd rfl hworse
        | some x =>
            rw [hcand] at hworse
            have hnot : ¬ c.id < x.id := fun hless => hworse (decide_eq_true hless)
            exact ⟨x, rfl, UInt32.not_lt.mp hnot⟩

/-- The candidate at the end of a scan is the least of all. -/
theorem ScanOrder.leastReady (h : ScanOrder g phase [] round) (hphase : PhaseOrder g phase)
    (hacc : Accepted g.components) (hscan : Scanning g [] round)
    (hcand : round.candidate = some c) (hslot : slot.state = .initializing)
    (hflag : slot.initialized = (g.runtime c.id).initialized) :
    LeastReady (g.busy c.id slot calls) c := by
  obtain ⟨hc, -, -, hdeps⟩ := hscan.candidate c hcand
  have hready : ∀ e, DependenciesInitialized (g.busy c.id slot calls) e ↔
      DependenciesInitialized g e := dependenciesInitialized_busy hflag
  have hcphase := h.phase_eq c hcand
  refine ⟨hc, ?_, (hready c).mpr hdeps, fun e he hph hst hdepse => ?_, fun e he hlt => ?_⟩
  · rw [Lifecycle.busy_runtime_self]
    exact hslot
  · have hne : e.id ≠ c.id := by
      intro hid
      rw [hid, Lifecycle.busy_runtime_self, hslot] at hst
      cases hst
    rw [Lifecycle.busy_runtime_of_ne _ _ _ _ hne] at hst
    obtain ⟨x, hx, hle⟩ := h.least e he List.not_mem_nil (hph.trans hcphase) hst
      ((hready e).mp hdepse)
    rw [hcand] at hx
    obtain rfl := Option.some.inj hx
    exact UInt32.lt_of_le_of_ne hle (Ne.symm hne)
  · have hne : e.id ≠ c.id := by
      intro hid
      obtain rfl := eq_of_id_eq hacc.nodup he hc hid
      omega
    rw [Lifecycle.busy_runtime_of_ne _ _ _ _ hne]
    exact hphase.lower e he (by omega)

theorem wp_initializeCandidate_order {phases : List Nat} (hini : Initializing g)
    (hscan : Scanning g [] round)
    (hphases : phases = List.range' (phase + 1) (phaseCount - (phase + 1)))
    (hlt : phase < phaseCount) (hphase : PhaseOrder g phase)
    (horder : ScanOrder g phase [] round) (hcand : round.candidate = some c) :
    lifecycleCode.wp orderContract (initializeComponentSteps c fun ret =>
      if ret ≠ .ok then haltSteps ret else .done (.round phase phases)) g := by
  have hwrite := write_update g c.id (g.runtime c.id) [] .initializing .ok
  rw [Lifecycle.busy_self] at hwrite
  refine ⟨trivial, trivial, ?_⟩
  rw [hwrite]
  refine ⟨trivial, horder.leastReady hphase hini.accepted hscan hcand rfl rfl, fun ret => ?_⟩
  rw [answer_busy]
  beta_reduce
  have hafter : ∀ {ret' : SysErr} {g' : Lifecycle}, PhaseOrder g' phase →
      lifecycleCode.wp orderContract
        (if ret' ≠ .ok then haltSteps ret' else .done (.round phase phases)) g' := by
    intro ret' g' hg'
    split
    · exact ⟨trivial, trivial⟩
    · exact ⟨trivial, hphases, hlt, hg'⟩
  split
  · refine ⟨trivial, trivial, ?_⟩
    rw [write_update]
    exact hafter (hphase.busy (Or.inr (Or.inl rfl)))
  · refine ⟨trivial, trivial, trivial, trivial, trivial, trivial, ?_⟩
    rw [write_setInitialized, write_pushInitialized, write_update]
    refine hafter ?_
    have hpush : PhaseOrder { g with initializedOrder := c :: g.initializedOrder } phase :=
      ⟨hphase.states, hphase.lower⟩
    exact hpush.busy (Or.inl rfl)

/-- The start of `c` comes in its turn. -/
theorem Starting.turn (h : Starting g (c :: rest)) (hslot : slot.state = .starting) :
    StartTurn (g.busy c.id slot calls) c := by
  obtain ⟨front, horder, hfront⟩ := h.order
  have hnd : (ids (front ++ c :: rest)).Nodup := by
    rw [← horder, ids, List.map_reverse]
    exact List.nodup_reverse.mpr h.coherent.initialized_order.nodup
  rw [ids, List.map_append, List.nodup_append] at hnd
  refine ⟨front, rest, horder, ?_, fun e he => ?_, fun e he => ?_⟩
  · rw [Lifecycle.busy_runtime_self]
    exact hslot
  · have hne : e.id ≠ c.id := hnd.2.2 e.id (mem_ids_of_mem he) c.id List.mem_cons_self
    rw [Lifecycle.busy_runtime_of_ne _ _ _ _ hne]
    exact hfront e he
  · have hne : e.id ≠ c.id := by
      intro hid
      exact h.head_not_mem (hid ▸ mem_ids_of_mem he)
    rw [Lifecycle.busy_runtime_of_ne _ _ _ _ hne]
    exact h.waiting e (List.mem_cons_of_mem _ he)

theorem wp_startNext_order (h : Starting g (c :: rest)) :
    lifecycleCode.wp orderContract (startComponentSteps c fun ret =>
      if ret ≠ .ok then haltSteps ret else .done (.startLoop rest)) g := by
  have hafter : ∀ (ret : SysErr) (g' : Lifecycle), lifecycleCode.wp orderContract
      (if ret ≠ .ok then haltSteps ret else .done (.startLoop rest)) g' := by
    intro ret g'
    split <;> exact ⟨trivial, trivial⟩
  have hrelease : ∀ {ret : SysErr} {g' : Lifecycle}, lifecycleCode.wp orderContract
      (releaseSteps c (if ret ≠ .ok then haltSteps ret else .done (.startLoop rest))) g' :=
    ⟨trivial, trivial, trivial, trivial, hafter _ _⟩
  refine ⟨trivial, ?_⟩
  split
  · -- a dependency is not running: the component is skipped, and released if it is optional
    refine ⟨trivial, trivial, ?_⟩
    by_cases hreq : c.policy = policyRequired
    · rw [if_pos hreq]
      exact hafter .dependency _
    · rw [if_neg hreq]
      refine ⟨trivial, ?_⟩
      split
      · exact hrelease
      · exact hafter .ok _
  · have hwrite := write_update g c.id (g.runtime c.id) [] .starting .ok
    rw [Lifecycle.busy_self] at hwrite
    refine ⟨trivial, trivial, ?_⟩
    rw [hwrite]
    refine ⟨trivial, h.turn rfl, fun a => ?_⟩
    dsimp only
    by_cases hret : (Request.start c).result a = .ok
    · rw [if_neg (not_not_intro hret)]
      exact ⟨trivial, trivial, trivial, trivial, trivial, trivial, hafter _ _⟩
    · rw [if_pos hret]
      refine ⟨trivial, trivial, ?_⟩
      split
      · exact ⟨trivial, trivial⟩
      · exact hrelease

theorem wp_stopNext_order {caller : Caller} {firstError : SysErr} :
    lifecycleCode.wp orderContract (.write .popStarted <| stopComponentSteps c fun ret =>
      .done (.stopLoop caller (if ret ≠ .ok ∧ firstError = .ok then ret else firstError))) g := by
  refine ⟨trivial, trivial, trivial, trivial, trivial, trivial, fun a => ⟨trivial, trivial, ?_⟩⟩
  split <;> exact ⟨trivial, trivial, trivial, trivial⟩

theorem wp_deinitNext_order {caller : Caller} {ret : SysErr} :
    lifecycleCode.wp orderContract (.write .popInitialized <|
      deinitializeComponentSteps c (.done (.deinitLoop caller ret))) g := by
  refine ⟨trivial, trivial, trivial, ?_⟩
  split
  · refine ⟨trivial, trivial, trivial, trivial, trivial, ?_⟩
    split
    · exact ⟨trivial, trivial, trivial, trivial⟩
    · exact ⟨trivial, trivial⟩
  · exact ⟨trivial, trivial⟩

/-! ## The order is kept -/

theorem wp_idle_order {last : Returned} {i : Input} {t : Steps}
    (h : enter (.idle last) i g = some t) : lifecycleCode.wp orderContract t g := by
  cases i with
  | startAll sec =>
      obtain rfl := Option.some.inj h
      refine ⟨trivial, trivial, trivial, ?_⟩
      show OrderInv _ (collectComponents sec g).2
      split
      · trivial
      · rename_i hret
        refine ⟨0, List.range_eq_range', Nat.zero_le _, fun i => Or.inl ?_, fun e _ hlt => ?_⟩
        · -- an accepted set has reset the slots
          have hok : (collectComponents sec g).1 = .ok := not_not.mp hret
          unfold collectComponents at hok ⊢
          split at hok
          · cases hok
          split at hok
          · cases hok
          rw [if_neg ‹_›, if_neg ‹_›]
        · exact absurd hlt (Nat.not_lt_zero _)
  | stopAll =>
      obtain rfl := Option.some.inj h
      exact ⟨trivial, trivial⟩
  | go => cases h

theorem wp_phaseLoop_order {phases : List Nat} {t : Steps} (hp : OrderInv (.phaseLoop phases) g)
    (h : enter (.phaseLoop phases) .go g = some t) : lifecycleCode.wp orderContract t g := by
  cases phases with
  | nil =>
      obtain rfl := Option.some.inj h
      exact ⟨trivial, trivial⟩
  | cons phase phases =>
      obtain rfl := Option.some.inj h
      obtain ⟨k, hrange, hle, hphase⟩ := hp
      obtain ⟨m, hm⟩ : ∃ m, phaseCount - k = m + 1 := by
        refine Nat.exists_eq_succ_of_ne_zero fun hzero => ?_
        rw [hzero] at hrange
        cases hrange
      rw [hm, List.range'_succ] at hrange
      obtain ⟨rfl, rfl⟩ := List.cons.inj hrange
      have hrest : m = phaseCount - (phase + 1) := by omega
      rw [hrest]
      exact ⟨trivial, rfl, by omega, hphase⟩

theorem wp_scan_order {phases : List Nat} {t : Steps} (hini : Initializing g)
    (hscan : Scanning g rest round) (hp : OrderInv (.scan phase phases rest round) g)
    (h : enter (.scan phase phases rest round) .go g = some t) :
    lifecycleCode.wp orderContract t g := by
  obtain ⟨hphases, hlt, hphase, horder⟩ := hp
  cases rest with
  | cons c rest =>
      obtain rfl := Option.some.inj h
      exact wp_scanComponent_order hini hscan hphases hlt hphase horder
  | nil =>
      simp only [enter] at h
      split at h
      · -- nobody of this phase is left DISCOVERED
        rename_i hzero
        obtain rfl := Option.some.inj h
        refine ⟨trivial, phase + 1, hphases, by omega, hphase.states, fun e he hle => ?_⟩
        rcases Nat.lt_succ_iff_lt_or_eq.mp hle with hlow | heq
        · exact hphase.lower e he hlow
        · refine (hphase.states e.id).resolve_left ?_
          exact horder.none_pending hzero e he List.not_mem_nil heq
      split at h
      · split at h
        · obtain rfl := Option.some.inj h
          exact ⟨trivial, hphases, hlt, hphase⟩
        · obtain rfl := Option.some.inj h
          exact ⟨trivial, trivial⟩
      · rename_i hcand
        obtain rfl := Option.some.inj h
        exact wp_initializeCandidate_order hini hscan hphases hlt hphase horder hcand

theorem wp_round_order {phases : List Nat} (hp : OrderInv (.round phase phases) g) :
    OrderInv (.scan phase phases g.components {}) g := by
  obtain ⟨hphases, hlt, hphase⟩ := hp
  refine ⟨hphases, hlt, hphase, fun e he hnot => ?_, fun c hc => (by cases hc),
    fun _ e he hnot => ?_⟩
  · exact absurd (mem_ids_of_mem he) hnot
  · exact absurd (mem_ids_of_mem he) hnot

/-- The component framework keeps the order, and its contract. -/
theorem lifecycle_meets_order :
    lifecycleCode.Meets (lifecycleContract.and orderContract) := by
  refine lifecycle_meets.and ?_ ?_
  · rintro p g ⟨rfl, rfl⟩
    exact ⟨trivial, trivial⟩
  · intro p i g t _ hp h
    rcases enter_input h with ⟨last, rfl⟩ | rfl
    · exact wp_idle_order h
    cases p with
    | idle last => cases h
    | phaseLoop phases => exact wp_phaseLoop_order hp.2 h
    | round phase phases =>
        obtain rfl := Option.some.inj h
        exact ⟨trivial, wp_round_order hp.2⟩
    | scan phase phases rest round => exact wp_scan_order hp.1.1 hp.1.2 hp.2 h
    | startLoop rest =>
        cases rest with
        | nil =>
            obtain rfl := Option.some.inj h
            exact ⟨trivial, trivial⟩
        | cons c rest =>
            obtain rfl := Option.some.inj h
            exact wp_startNext_order hp.1
    | stopLoop caller firstError =>
        simp only [lifecycleCode, enter] at h
        split at h
        · obtain rfl := Option.some.inj h
          exact ⟨trivial, trivial⟩
        · obtain rfl := Option.some.inj h
          exact wp_stopNext_order
    | deinitLoop caller ret =>
        simp only [lifecycleCode, enter] at h
        split at h
        · obtain rfl := Option.some.inj h
          exact ⟨trivial, trivial⟩
        · obtain rfl := Option.some.inj h
          exact wp_deinitNext_order

end Steps

/-! ## The start pass keeps to the order -/

/-- The component whose start is called at a call site. -/
def Call.started : Call → Option UInt32
  | .start i _ => some i
  | _ => none

/-- The components whose starts were called, in the order of the calls. -/
def startsOf (calls : List Call) : List UInt32 := calls.filterMap Call.started

/-- Since `g₀`, starts were called of some components of `l` only, in the order of `l`. -/
def StartedAlong (g₀ : Lifecycle) (l : List ComponentDesc) (g : Lifecycle) : Prop :=
  ∃ calls, g.calls = g₀.calls ++ calls ∧ (startsOf calls).Sublist (ids l)

/-- The contract of the start pass that begins in `g₀`, and of the rollback after it. -/
def startPassContract (g₀ : Lifecycle) : Contract Lifecycle Op Request Place where
  good := StartedAlong g₀ g₀.initializedOrder.reverse
  write _ _ := True
  call _ _ := True
  place
    | .phaseLoop [], g => g = g₀
    | .startLoop rest, g =>
      ∃ front, g₀.initializedOrder.reverse = front ++ rest ∧ StartedAlong g₀ front g
    | .idle _, _ => True
    | .stopLoop _ _, _ => True
    | .deinitLoop _ _, _ => True
    | _, _ => False

section StartPass

variable {g₀ g g' : Lifecycle} {c : ComponentDesc} {l front rest : List ComponentDesc}
  {t : Steps}

theorem StartedAlong.congr (h : StartedAlong g₀ l g) (hcalls : g'.calls = g.calls) :
    StartedAlong g₀ l g' := by
  obtain ⟨calls, heq, hsub⟩ := h
  exact ⟨calls, hcalls.trans heq, hsub⟩

/-- A call that is no start. -/
theorem StartedAlong.snoc {call : Call} (h : StartedAlong g₀ l g) (hcall : call.started = none)
    (hcalls : g'.calls = g.calls ++ [call]) : StartedAlong g₀ l g' := by
  obtain ⟨calls, heq, hsub⟩ := h
  refine ⟨calls ++ [call], by rw [hcalls, heq, List.append_assoc], ?_⟩
  rw [startsOf, List.filterMap_append, List.filterMap_cons_none hcall, List.filterMap_nil,
    List.append_nil]
  exact hsub

/-- The start of the next one. -/
theorem StartedAlong.start {a : SysErr} (h : StartedAlong g₀ l g)
    (hcalls : g'.calls = g.calls ++ [(Request.start c).site a]) :
    StartedAlong g₀ (l ++ [c]) g' := by
  obtain ⟨calls, heq, hsub⟩ := h
  refine ⟨calls ++ [(Request.start c).site a], by rw [hcalls, heq, List.append_assoc], ?_⟩
  rw [startsOf, List.filterMap_append, ids, List.map_append]
  exact hsub.append (List.Sublist.refl _)

theorem StartedAlong.append (h : StartedAlong g₀ l g) (l' : List ComponentDesc) :
    StartedAlong g₀ (l ++ l') g := by
  obtain ⟨calls, heq, hsub⟩ := h
  refine ⟨calls, heq, hsub.trans ?_⟩
  rw [ids, ids, List.map_append]
  exact List.sublist_append_left _ _

theorem wp_releaseSteps_along {next : Steps} (h : StartedAlong g₀ g₀.initializedOrder.reverse g)
    (hnext : ∀ g', (∀ l, StartedAlong g₀ l g → StartedAlong g₀ l g') →
      lifecycleCode.wp (startPassContract g₀) next g') :
    lifecycleCode.wp (startPassContract g₀) (releaseSteps c next) g := by
  have hdeinit : ∀ l, StartedAlong g₀ l g →
      StartedAlong g₀ l (lifecycleCode.write (.deinit c.id) g) := by
    intro l hl
    have hnone : (Call.deinit c.id).started = none := rfl
    exact hl.snoc hnone rfl
  exact ⟨h, trivial, hdeinit _ h, trivial, hnext _ fun l hl => (hdeinit l hl).congr rfl⟩

theorem wp_startNext_along (hsplit : g₀.initializedOrder.reverse = front ++ c :: rest)
    (h : StartedAlong g₀ front g) :
    lifecycleCode.wp (startPassContract g₀) (startComponentSteps c fun ret =>
      if ret ≠ .ok then haltSteps ret else .done (.startLoop rest)) g := by
  have hsplit' : g₀.initializedOrder.reverse = (front ++ [c]) ++ rest := by
    rw [hsplit, List.append_assoc]
    rfl
  have hall : ∀ {g'}, StartedAlong g₀ front g' →
      StartedAlong g₀ g₀.initializedOrder.reverse g' := by
    intro g' hg'
    rw [hsplit]
    exact hg'.append _
  have hall' : ∀ {g'}, StartedAlong g₀ (front ++ [c]) g' →
      StartedAlong g₀ g₀.initializedOrder.reverse g' := by
    intro g' hg'
    rw [hsplit']
    exact hg'.append _
  have hafter : ∀ (ret : SysErr) {g' : Lifecycle}, StartedAlong g₀ (front ++ [c]) g' →
      lifecycleCode.wp (startPassContract g₀)
        (if ret ≠ .ok then haltSteps ret else .done (.startLoop rest)) g' := by
    intro ret g' hg'
    split
    · exact ⟨hall' hg', trivial⟩
    · exact ⟨hall' hg', front ++ [c], hsplit', hg'⟩
  refine ⟨hall h, ?_⟩
  split
  · refine ⟨hall h, trivial, ?_⟩
    have hskip : StartedAlong g₀ (front ++ [c]) (lifecycleCode.write
        (.update c.id .skipped .dependency) g) := (h.congr rfl).append [c]
    by_cases hreq : c.policy = policyRequired
    · rw [if_pos hreq]
      exact hafter .dependency hskip
    · rw [if_neg hreq]
      refine ⟨hall' hskip, ?_⟩
      split
      · exact wp_releaseSteps_along (hall' hskip) fun g' hg' => hafter .ok (hg' _ hskip)
      · exact hafter .ok hskip
  · have hstarting : StartedAlong g₀ front (lifecycleCode.write
        (.update c.id .starting .ok) g) := h.congr rfl
    refine ⟨hall h, trivial, hall hstarting, trivial, fun a => ?_⟩
    have hcalled : StartedAlong g₀ (front ++ [c]) (lifecycleCode.answer (.start c) a
        (lifecycleCode.write (.update c.id .starting .ok) g)) := hstarting.start rfl
    dsimp only
    by_cases hret : (Request.start c).result a = .ok
    · rw [if_neg (not_not_intro hret)]
      have hup : ∀ {g'}, g'.calls = (lifecycleCode.answer (.start c) a
          (lifecycleCode.write (.update c.id .starting .ok) g)).calls →
          StartedAlong g₀ g₀.initializedOrder.reverse g' := fun hc => hall' (hcalled.congr hc)
      exact ⟨hall' hcalled, trivial, hup rfl, trivial, hup rfl, trivial,
        hafter .ok (hcalled.congr rfl)⟩
    · rw [if_pos hret]
      have hfailed : StartedAlong g₀ (front ++ [c]) (lifecycleCode.write
          (.update c.id .failed ((Request.start c).result a)) (lifecycleCode.answer (.start c) a
            (lifecycleCode.write (.update c.id .starting .ok) g))) := hcalled.congr rfl
      refine ⟨hall' hcalled, trivial, ?_⟩
      split
      · exact ⟨hall' hfailed, trivial⟩
      · exact wp_releaseSteps_along (hall' hfailed) fun g' hg' => hafter .ok (hg' _ hfailed)

theorem wp_stopNext_along {caller : Caller} {firstError : SysErr}
    (h : StartedAlong g₀ g₀.initializedOrder.reverse g) :
    lifecycleCode.wp (startPassContract g₀) (.write .popStarted <| stopComponentSteps c fun ret =>
      .done (.stopLoop caller (if ret ≠ .ok ∧ firstError = .ok then ret else firstError))) g := by
  refine ⟨h, trivial, h.congr rfl, trivial, h.congr rfl, trivial, fun a => ?_⟩
  have hcalled : ∀ {g'}, g'.calls = g.calls ++ [(Request.stop c).site a] →
      StartedAlong g₀ g₀.initializedOrder.reverse g' := fun hc => h.snoc rfl hc
  refine ⟨hcalled rfl, trivial, ?_⟩
  dsimp only
  split <;> exact ⟨hcalled rfl, trivial, hcalled rfl, trivial⟩

theorem wp_deinitNext_along {caller : Caller} {ret : SysErr}
    (h : StartedAlong g₀ g₀.initializedOrder.reverse g) :
    lifecycleCode.wp (startPassContract g₀) (.write .popInitialized <|
      deinitializeComponentSteps c (.done (.deinitLoop caller ret))) g := by
  refine ⟨h, trivial, h.congr rfl, ?_⟩
  split
  · refine wp_releaseSteps_along (h.congr rfl) fun g' hg' => ?_
    have hg'' := hg' _ (h.congr rfl)
    refine ⟨hg'', ?_⟩
    split
    · exact ⟨hg'', trivial, hg''.congr rfl, trivial⟩
    · exact ⟨hg'', trivial⟩
  · exact ⟨h.congr rfl, trivial⟩

/-- The programs of the start pass and of what follows it, but for a new `start_all`. -/
theorem wp_startPass {p : Place} {i : Input} (hi : ∀ sec, i ≠ .startAll sec)
    (h : enter p i g = some t) (hgood : StartedAlong g₀ g₀.initializedOrder.reverse g)
    (hp : (startPassContract g₀).place p g) :
    lifecycleCode.wp (startPassContract g₀) t g := by
  rcases enter_input h with ⟨last, rfl⟩ | rfl
  · cases i with
    | startAll sec => exact absurd rfl (hi sec)
    | stopAll =>
        obtain rfl := Option.some.inj h
        exact ⟨hgood, trivial⟩
    | go => cases h
  cases p with
  | idle last => cases h
  | phaseLoop phases =>
      cases phases with
      | nil =>
          obtain rfl := Option.some.inj h
          obtain rfl : g = g₀ := hp
          exact ⟨hgood, [], rfl, [], (List.append_nil _).symm, List.Sublist.refl _⟩
      | cons phase phases => exact hp.elim
  | round phase phases => exact hp.elim
  | scan phase phases rest round => exact hp.elim
  | startLoop rest =>
      cases rest with
      | nil =>
          obtain rfl := Option.some.inj h
          exact ⟨hgood, trivial⟩
      | cons c rest =>
          obtain rfl := Option.some.inj h
          obtain ⟨front, hsplit, hfront⟩ := hp
          exact wp_startNext_along hsplit hfront
  | stopLoop caller firstError =>
      simp only [enter] at h
      split at h
      · obtain rfl := Option.some.inj h
        exact ⟨hgood, trivial⟩
      · obtain rfl := Option.some.inj h
        exact wp_stopNext_along hgood
  | deinitLoop caller ret =>
      simp only [enter] at h
      split at h
      · obtain rfl := Option.some.inj h
        exact ⟨hgood, trivial⟩
      · obtain rfl := Option.some.inj h
        exact wp_deinitNext_along hgood

/-- From the end of the phases until a new `start_all`, starts are called in the initialized
    order only. -/
theorem startedAlong_of_run {es : List (Code.Event SysErr Input)} {t : Steps}
    (hrun : lifecycleCode.machine.Run (.done (.phaseLoop []), g₀) es (t, g))
    (hes : ∀ sec, .input (.startAll sec) ∉ es) :
    StartedAlong g₀ g₀.initializedOrder.reverse g := by
  have hbegin : lifecycleCode.wp (startPassContract g₀) (.done (.phaseLoop [])) g₀ :=
    ⟨⟨[], (List.append_nil _).symm, List.nil_sublist _⟩, rfl⟩
  have henter : ∀ p i s u, (∀ sec, i ≠ .startAll sec) → lifecycleCode.enter p i s = some u →
      (startPassContract g₀).good s → (startPassContract g₀).place p s →
      lifecycleCode.wp (startPassContract g₀) u s :=
    fun p i s u hi hu hgood hp => wp_startPass hi hu hgood hp
  have hwp := hbegin.run henter hrun ?_
  · exact hwp.good
  · rintro i hi sec rfl
    exact hes sec hi

end StartPass

/-! ## Least-id topological order -/

/-- The initialized order lists the initialized components once each, and each one after its
    dependencies. -/
structure OrderComplete (g : Lifecycle) : Prop where
  nodup : (ids g.initializedOrder.reverse).Nodup
  mem_iff : ∀ i, i ∈ ids g.initializedOrder.reverse ↔ (g.runtime i).state = .initialized
  resolved : ∀ c ∈ g.components, Resolved (g.runtime c.id).state
  after : ∀ front c rest, g.initializedOrder.reverse = front ++ c :: rest →
    ∀ d ∈ c.dependencies, d ∈ ids front

section Reached

variable {t : Steps} {g : Lifecycle}

theorem Initializing.orderComplete (h : Initializing g)
    (horder : OrderInv (.phaseLoop []) g) : OrderComplete g where
  nodup := by
    rw [ids, List.map_reverse]
    exact List.nodup_reverse.mpr h.coherent.initialized_order.nodup
  mem_iff i := by
    rw [ids, List.map_reverse, List.mem_reverse]
    exact ⟨h.initialized i, h.coherent.initialized_mem i⟩
  resolved c hc := by
    obtain ⟨k, hk, hle, hphase⟩ := horder
    have hlast : phaseCount - k = 0 := by
      have hlen := congrArg List.length hk
      rw [List.length_range'] at hlen
      exact hlen.symm
    refine hphase.lower c hc ?_
    have hvalid := h.accepted.phase_lt c hc
    omega
  after front c rest hsplit d hd := by
    have hstack : g.initializedOrder = rest.reverse ++ c :: front.reverse := by
      rw [← List.reverse_reverse g.initializedOrder, hsplit]
      simp
    have hbelow := h.coherent.initialized_order.closed _ _ _ hstack d hd
    rwa [ids, List.map_reverse, List.mem_reverse] at hbelow

/-- At every point of every run: the init that is called is that of the component with the
    least id among those of its phase that are DISCOVERED and ready, every lower phase being
    done with; when all phases are complete, the initialized order lists the initialized
    components, each after its dependencies; and the starts are called in that order. -/
theorem init_least_ready (h : lifecycleCode.machine.Reachable (t, g)) :
    (∀ c k, t = .call (.init c) k → LeastReady g c) ∧
    (∀ c k, t = .call (.start c) k → StartTurn g c) ∧
    (t = .done (.phaseLoop []) → OrderComplete g ∧
      ∀ es t' g', lifecycleCode.machine.Run (t, g) es (t', g') →
        (∀ sec, .input (.startAll sec) ∉ es) →
        ∃ calls, g'.calls = g.calls ++ calls ∧
          (startsOf calls).Sublist (ids g.initializedOrder.reverse)) := by
  have hwp := lifecycle_meets_order.reachable h
  refine ⟨?_, ?_, ?_⟩
  · rintro c k rfl
    exact hwp.call.2
  · rintro c k rfl
    exact hwp.call.2
  · rintro rfl
    have hplace := hwp.place
    refine ⟨Initializing.orderComplete hplace.1 hplace.2, fun es t' g' hrun hes => ?_⟩
    exact startedAlong_of_run hrun hes

end Reached

/-- Component 3 comes first in the section but waits for 2; when the phases are complete, 2
    and 3 are initialized in this order. -/
theorem init_least_ready_two :
    let sec := LinkSection.ofList [.core 3 policyRequired [2], .core 2 policyRequired []]
    ∃ g, initializePhases (.failing [] []) (List.range phaseCount)
        (collectComponents sec .zero).2 = some (.ok, g) ∧
      ids g.initializedOrder.reverse = [2, 3] ∧ OrderComplete g := by
  intro sec
  obtain ⟨⟨ret, g⟩, hrun⟩ : ∃ x, initializePhases (.failing [] []) (List.range phaseCount)
      (collectComponents sec .zero).2 = some x := Option.isSome_iff_exists.mp (by decide)
  have hret : ret = .ok ∧ ids g.initializedOrder.reverse = [2, 3] := by
    have hget : (ret, g) = (initializePhases (.failing [] []) (List.range phaseCount)
        (collectComponents sec .zero).2).get (by decide) := by
      simp only [hrun, Option.get_some]
    obtain ⟨rfl, rfl⟩ := Prod.mk.inj hget
    decide
  obtain ⟨rfl, horder⟩ := hret
  have hcollect : lifecycleCode.Leads (.idle .nothing) .zero (.phaseLoop (List.range phaseCount))
      (collectComponents sec .zero).2 := by
    have hok : (collectComponents sec .zero).1 = .ok := by decide
    refine Code.Leads.enter (i := .startAll sec) (Callbacks.failing [] []).answer rfl ?_
    show (if (collectComponents sec .zero).1 ≠ .ok then
      Place.idle (.rejected (collectComponents sec .zero).1) else _, _) = _
    rw [if_neg (not_not_intro hok)]
    rfl
  have hreach : lifecycleCode.machine.Reachable (.done (.phaseLoop []), g) :=
    (hcollect.trans (initializePhases_leads hrun)).reachable (Code.reachable_start ⟨rfl, rfl⟩)
  exact ⟨g, hrun, horder, ((init_least_ready hreach).2.2 rfl).1⟩

end Component
end AppCore
