/-
  AppCore.Component.Bounds

  `initialize_phase` ends, and the order stacks stay within their arrays.  A round
  that goes on has moved a component of the phase out of DISCOVERED, by a skip in
  its scan or by the init after it, and nobody ever becomes DISCOVERED again.  A
  push finds its component in a state that is never entered twice.
-/

import AppCore.Component.Status

namespace AppCore
namespace Component

/-! ## The rounds of one phase -/

/-- One round of the `for (;;)` loop of `initialize_phase`; `none` when it goes on. -/
def phaseRound (cb : Callbacks) (phase : Nat) (g : Lifecycle) : Option SysErr × Lifecycle :=
  let (ret, round, g) := scanComponents phase g.components {} g
  if ret ≠ .ok then (some ret, g)
  else if round.pendingCount = 0 then (some .ok, g)
  else
    match round.candidate with
    | none => if round.skippedComponent = true then (none, g) else (some .dependency, g)
    | some candidate =>
      let (ret, g) := initializeComponent cb candidate g
      if ret ≠ .ok then (some ret, g) else (none, g)

/-- The components of a phase that are DISCOVERED. -/
def Lifecycle.discoveredOf (g : Lifecycle) (phase : Nat) : List ComponentDesc :=
  g.components.filter fun c => (g.runtime c.id).state = .discovered ∧ c.phase = phase

/-- Nobody is DISCOVERED in `g'` who was not in `g`. -/
structure NoneRediscovered (g g' : Lifecycle) : Prop where
  components : g'.components = g.components
  kept : ∀ i, (g'.runtime i).state = .discovered → (g.runtime i).state = .discovered

/-- Some of these components of the phase has left DISCOVERED. -/
def Resolves (phase : Nat) (l : List ComponentDesc) (g g' : Lifecycle) : Prop :=
  ∃ c ∈ l, c.phase = phase ∧ (g.runtime c.id).state = .discovered ∧
    (g'.runtime c.id).state ≠ .discovered

section Rounds

variable {cb : Callbacks} {phase fuel : Nat} {g g' g'' : Lifecycle} {c : ComponentDesc}
  {l : List ComponentDesc} {round round' : Round} {ret : SysErr}

/-- The loop is its rounds. -/
theorem initializePhase_succ (cb : Callbacks) (phase fuel : Nat) (g : Lifecycle) :
    initializePhase cb phase (fuel + 1) g =
      match phaseRound cb phase g with
      | (some ret, g') => some (ret, g')
      | (none, g') => initializePhase cb phase fuel g' := by
  rw [initializePhase, phaseRound]
  obtain ⟨ret, round, s⟩ := scanComponents phase g.components {} g
  dsimp only
  by_cases hret : ret ≠ .ok
  · rw [if_pos hret, if_pos hret]
  rw [if_neg hret, if_neg hret]
  by_cases hzero : round.pendingCount = 0
  · rw [if_pos hzero, if_pos hzero]
  rw [if_neg hzero, if_neg hzero]
  cases round.candidate with
  | none =>
      dsimp only
      split <;> rfl
  | some candidate =>
      dsimp only
      split <;> rfl

theorem NoneRediscovered.refl (g : Lifecycle) : NoneRediscovered g g := ⟨rfl, fun _ h => h⟩

theorem NoneRediscovered.trans (h : NoneRediscovered g g') (h' : NoneRediscovered g' g'') :
    NoneRediscovered g g'' :=
  ⟨h'.components.trans h.components, fun i hi => h.kept i (h'.kept i hi)⟩

theorem Lifecycle.modify_runtime_self (id : UInt32) (f : ComponentRuntime → ComponentRuntime) :
    (g.modify id f).runtime id = f (g.runtime id) := Function.update_self ..

theorem Lifecycle.modify_runtime_of_ne {id i : UInt32} (h : i ≠ id)
    (f : ComponentRuntime → ComponentRuntime) : (g.modify id f).runtime i = g.runtime i :=
  Function.update_of_ne h ..

/-- A write to a slot that does not make it DISCOVERED. -/
theorem noneRediscovered_modify {id : UInt32} {f : ComponentRuntime → ComponentRuntime}
    (hf : ∀ slot, (f slot).state = .discovered → slot.state = .discovered) :
    NoneRediscovered g (g.modify id f) := by
  refine ⟨rfl, fun i hi => ?_⟩
  by_cases hid : i = id
  · subst hid
    rw [Lifecycle.modify_runtime_self] at hi
    exact hf _ hi
  · rwa [Lifecycle.modify_runtime_of_ne hid] at hi

theorem handleDependencyFailure_resolves (h : handleDependencyFailure c g = (ret, g')) :
    NoneRediscovered g g' ∧ (g'.runtime c.id).state ≠ .discovered := by
  have hg' : g' = updateState c.id .skipped .dependency g := by
    unfold handleDependencyFailure at h
    dsimp only at h
    split at h
    · exact (Prod.mk.inj h).2.symm
    · exact (Prod.mk.inj h).2.symm
  subst hg'
  refine ⟨noneRediscovered_modify fun slot hs => (by cases hs), ?_⟩
  rw [updateState, Lifecycle.modify_runtime_self]
  exact ComponentState.noConfusion

theorem initializeComponent_resolves (h : initializeComponent cb c g = (ret, g')) :
    NoneRediscovered g g' ∧ (g'.runtime c.id).state ≠ .discovered := by
  have hstep : ∀ (s : Lifecycle) (state : ComponentState) (error : SysErr),
      state ≠ .discovered → NoneRediscovered s (updateState c.id state error s) :=
    fun s state error hne => noneRediscovered_modify fun slot hs => absurd hs hne
  have hend : ∀ (s : Lifecycle) (state : ComponentState) (error : SysErr),
      state ≠ .discovered →
      ((updateState c.id state error s).runtime c.id).state ≠ .discovered := by
    intro s state error hne
    rw [updateState, Lifecycle.modify_runtime_self]
    exact hne
  have hbegin := hstep g .initializing .ok (by decide)
  have hrecord : ∀ (s : Lifecycle) (call : Call), NoneRediscovered s (s.record call) :=
    fun s call => ⟨rfl, fun _ hi => hi⟩
  have hcalled := hbegin.trans (hrecord _ (.init c.id (cb.init c.id)))
  unfold initializeComponent at h
  dsimp only at h
  split at h
  · obtain ⟨-, rfl⟩ := Prod.mk.inj h
    exact ⟨hcalled.trans (hstep _ .failed _ (by decide)), hend _ .failed _ (by decide)⟩
  · obtain ⟨-, rfl⟩ := Prod.mk.inj h
    have hflag : ∀ s : Lifecycle, NoneRediscovered s (setInitialized c.id true s) :=
      fun s => noneRediscovered_modify fun slot hs => hs
    have hpush : ∀ s : Lifecycle,
        NoneRediscovered s { s with initializedOrder := c :: s.initializedOrder } :=
      fun s => ⟨rfl, fun _ hi => hi⟩
    exact ⟨(hcalled.trans (hflag _)).trans ((hpush _).trans (hstep _ .initialized _ (by decide))),
      hend _ .initialized _ (by decide)⟩

/-- What a scan has found: a component that was DISCOVERED as its candidate, and one that it has
    moved to SKIPPED if it says so. -/
structure Scanned (phase : Nat) (l : List ComponentDesc) (g : Lifecycle) (round round' : Round)
    (g' : Lifecycle) : Prop where
  none_rediscovered : NoneRediscovered g g'
  candidate : ∀ c, round'.candidate = some c → round.candidate = some c ∨
    (c ∈ l ∧ c.phase = phase ∧ (g.runtime c.id).state = .discovered)
  skipped : round'.skippedComponent = true →
    round.skippedComponent = true ∨ Resolves phase l g g'

theorem scanComponent_scanned (h : scanComponent phase c round g = (ret, round', g')) :
    Scanned phase [c] g round round' g' := by
  unfold scanComponent at h
  split at h
  · obtain ⟨-, rfl, rfl⟩ : SysErr.ok = ret ∧ round = round' ∧ g = g' := by
      simpa only [Prod.mk.injEq] using h
    exact ⟨.refl g, fun e he => Or.inl he, Or.inl⟩
  rename_i hpending
  obtain ⟨hst, hph⟩ : (g.runtime c.id).state = .discovered ∧ c.phase = phase := by
    simpa only [ne_eq, not_or, not_not] using hpending
  dsimp only at h
  split at h
  · -- the component is skipped
    obtain ⟨error, s, hdep⟩ : ∃ error s, handleDependencyFailure c g = (error, s) := ⟨_, _, rfl⟩
    obtain ⟨hnone, hleft⟩ := handleDependencyFailure_resolves hdep
    rw [hdep] at h
    dsimp only at h
    split at h
    · obtain ⟨-, rfl, rfl⟩ : error = ret ∧ _ = round' ∧ s = g' := by
        simpa only [Prod.mk.injEq] using h
      exact ⟨hnone, fun e he => Or.inl he, Or.inl⟩
    · obtain ⟨-, rfl, rfl⟩ : SysErr.ok = ret ∧ _ = round' ∧ s = g' := by
        simpa only [Prod.mk.injEq] using h
      exact ⟨hnone, fun e he => Or.inl he, fun _ => Or.inr ⟨c, List.mem_singleton_self c, hph, hst,
        hleft⟩⟩
  · split at h
    · obtain ⟨-, rfl, rfl⟩ : SysErr.ok = ret ∧ _ = round' ∧ g = g' := by
        simpa only [Prod.mk.injEq] using h
      refine ⟨.refl g, fun e he => Or.inr ?_, Or.inl⟩
      obtain rfl : c = e := Option.some.inj he
      exact ⟨List.mem_singleton_self c, hph, hst⟩
    · obtain ⟨-, rfl, rfl⟩ : SysErr.ok = ret ∧ _ = round' ∧ g = g' := by
        simpa only [Prod.mk.injEq] using h
      exact ⟨.refl g, fun e he => Or.inl he, Or.inl⟩
  · obtain ⟨-, rfl, rfl⟩ : SysErr.ok = ret ∧ _ = round' ∧ g = g' := by
      simpa only [Prod.mk.injEq] using h
    exact ⟨.refl g, fun e he => Or.inl he, Or.inl⟩

theorem scanComponents_scanned (h : scanComponents phase l round g = (ret, round', g')) :
    Scanned phase l g round round' g' := by
  induction l generalizing round g with
  | nil =>
      obtain ⟨-, rfl, rfl⟩ : SysErr.ok = ret ∧ round = round' ∧ g = g' := by
        simpa only [scanComponents, Prod.mk.injEq] using h
      exact ⟨.refl g, fun e he => Or.inl he, Or.inl⟩
  | cons c rest ih =>
      obtain ⟨error, middle, s, hone⟩ : ∃ error middle s,
        scanComponent phase c round g = (error, middle, s) := ⟨_, _, _, rfl⟩
      have hfirst := scanComponent_scanned hone
      have hwider : ∀ e, e ∈ [c] → e ∈ c :: rest := fun e he =>
        List.mem_singleton.mp he ▸ List.mem_cons_self
      simp only [scanComponents, hone] at h
      split at h
      · obtain ⟨-, rfl, rfl⟩ : error = ret ∧ middle = round' ∧ s = g' := by
          simpa only [Prod.mk.injEq] using h
        refine ⟨hfirst.none_rediscovered, fun e he => ?_, fun hskip => ?_⟩
        · exact (hfirst.candidate e he).imp_right (And.imp_left (hwider e))
        · exact (hfirst.skipped hskip).imp_right (Exists.imp fun e => And.imp_left (hwider e))
      · have hlater := ih h
        refine ⟨hfirst.none_rediscovered.trans hlater.none_rediscovered, fun e he => ?_,
          fun hskip => ?_⟩
        · rcases hlater.candidate e he with hmiddle | ⟨hmem, hph, hst⟩
          · exact (hfirst.candidate e hmiddle).imp_right (And.imp_left (hwider e))
          · exact Or.inr ⟨List.mem_cons_of_mem c hmem, hph,
              hfirst.none_rediscovered.kept e.id hst⟩
        · rcases hlater.skipped hskip with hmiddle | ⟨e, hmem, hph, hst, hleft⟩
          · refine (hfirst.skipped hmiddle).imp_right ?_
            rintro ⟨e, hmem, hph, hst, hleft⟩
            exact ⟨e, hwider e hmem, hph, hst,
              fun hend => hleft (hlater.none_rediscovered.kept e.id hend)⟩
          · exact Or.inr ⟨e, List.mem_cons_of_mem c hmem, hph,
              hfirst.none_rediscovered.kept e.id hst, hleft⟩

/-- A round that goes on has moved a component of the phase out of DISCOVERED. -/
theorem phaseRound_resolves (h : phaseRound cb phase g = (none, g')) :
    NoneRediscovered g g' ∧ Resolves phase g.components g g' := by
  obtain ⟨error, round, s, hscan⟩ : ∃ error round s,
    scanComponents phase g.components {} g = (error, round, s) := ⟨_, _, _, rfl⟩
  have hscanned := scanComponents_scanned hscan
  simp only [phaseRound, hscan] at h
  split at h
  · cases (Prod.mk.inj h).1
  split at h
  · cases (Prod.mk.inj h).1
  split at h
  · -- no candidate: the scan has skipped somebody
    split at h
    · rename_i hskip
      obtain ⟨-, rfl⟩ := Prod.mk.inj h
      exact ⟨hscanned.none_rediscovered,
        (hscanned.skipped hskip).resolve_left Bool.false_ne_true⟩
    · cases (Prod.mk.inj h).1
  · -- the init of the candidate
    rename_i candidate hcand
    obtain ⟨ret, s', hinit⟩ : ∃ ret s', initializeComponent cb candidate s = (ret, s') :=
      ⟨_, _, rfl⟩
    obtain ⟨hnone, hleft⟩ := initializeComponent_resolves hinit
    rw [hinit] at h
    dsimp only at h
    split at h
    · cases (Prod.mk.inj h).1
    · obtain ⟨-, rfl⟩ := Prod.mk.inj h
      obtain ⟨hmem, hph, hst⟩ := (hscanned.candidate candidate hcand).resolve_left
        fun hnil => by cases hnil
      exact ⟨hscanned.none_rediscovered.trans hnone, candidate, hmem, hph, hst, hleft⟩

/-- The DISCOVERED components of the phase are the measure of the loop. -/
theorem discoveredOf_length_lt (h : NoneRediscovered g g')
    (hresolves : Resolves phase g.components g g') :
    (g'.discoveredOf phase).length < (g.discoveredOf phase).length := by
  obtain ⟨c, hc, hph, hst, hleft⟩ := hresolves
  rw [Lifecycle.discoveredOf, Lifecycle.discoveredOf, h.components]
  apply length_filter_lt (fun e he => ⟨h.kept e.id he.1, he.2⟩) hc
  · exact ⟨hst, hph⟩
  · exact fun hend => hleft hend.1

/-- `initialize_phase` returns within one round more than there are DISCOVERED components. -/
theorem initializePhase_returns (cb : Callbacks) (phase : Nat) (g : Lifecycle) :
    ∃ result, ∀ fuel, (g.discoveredOf phase).length < fuel →
      initializePhase cb phase fuel g = some result := by
  -- strong induction on the measure, one round at a time
  induction hn : (g.discoveredOf phase).length using Nat.strong_induction_on generalizing g with
  | _ n ih =>
      cases hround : phaseRound cb phase g with
      | mk returned g' =>
          cases returned with
          | some ret =>
              refine ⟨(ret, g'), fun fuel hfuel => ?_⟩
              obtain ⟨rounds, rfl⟩ := Nat.exists_eq_succ_of_ne_zero (Nat.ne_zero_of_lt hfuel)
              rw [initializePhase_succ, hround]
          | none =>
              obtain ⟨hnone, hresolves⟩ := phaseRound_resolves hround
              have hlt : (g'.discoveredOf phase).length < n :=
                hn ▸ discoveredOf_length_lt hnone hresolves
              obtain ⟨result, hresult⟩ := ih _ hlt g' rfl
              refine ⟨result, fun fuel hfuel => ?_⟩
              obtain ⟨rounds, rfl⟩ := Nat.exists_eq_succ_of_ne_zero (Nat.ne_zero_of_lt hfuel)
              rw [initializePhase_succ, hround]
              exact hresult rounds (by omega)

end Rounds

/-! ## The order stacks -/

/-- `g_initialized_order` or `g_started_order`. -/
inductive OrderStack where
  | initialized
  | started
deriving DecidableEq, Repr

/-- The stack, top first. -/
def OrderStack.order (g : Lifecycle) : OrderStack → List ComponentDesc
  | .initialized => g.initializedOrder
  | .started => g.startedOrder

/-- The write that pushes a component. -/
def OrderStack.push (c : ComponentDesc) : OrderStack → Op
  | .initialized => .pushInitialized c
  | .started => .pushStarted c

/-- The write that pops one. -/
def OrderStack.pop : OrderStack → Op
  | .initialized => .popInitialized
  | .started => .popStarted

/-- The state in which a component is pushed. -/
def OrderStack.working : OrderStack → ComponentState
  | .initialized => .initializing
  | .started => .starting

/-- How far a component is in its life cycle. -/
def ComponentState.rank : ComponentState → Nat
  | .discovered => 0
  | .initializing => 1
  | .initialized => 2
  | .starting => 3
  | .running => 4
  | .stopping => 5
  | .stopped => 6
  | .failed => 6
  | .skipped => 6

/-- The table fits into its array, and no stack holds a component twice or one that is not in
    the table. -/
structure StacksInv (g : Lifecycle) : Prop where
  components_le : g.components.length ≤ componentMaxCount
  nodup : ∀ stack, (ids (OrderStack.order g stack)).Nodup
  mem : ∀ stack, ∀ c ∈ OrderStack.order g stack, c ∈ g.components

/-- What a write to a stack finds: a push finds its component at work and not on the stack, and a
    pop nobody at work. -/
structure Op.Stacks (o : Op) (g : Lifecycle) : Prop where
  push : ∀ stack c, o = OrderStack.push c stack →
    (g.runtime c.id).state = stack.working ∧ c.id ∉ ids (stack.order g) ∧ c ∈ g.components
  pop : ∀ stack, o = OrderStack.pop stack → ∀ i, (g.runtime i).state ≠ stack.working

/-- The contract about the stacks. -/
def stacksContract : Contract Lifecycle Op Request Place where
  good := StacksInv
  write o g := o.Stacks g
  call _ _ := True
  place _ _ := True

section Stacks

variable {g g' : Lifecycle} {c : ComponentDesc} {stack : OrderStack} {o : Op} {t : Steps}

theorem StacksInv.congr (h : StacksInv g) (hcomps : g'.components = g.components)
    (hinit : g'.initializedOrder = g.initializedOrder)
    (hstarted : g'.startedOrder = g.startedOrder) : StacksInv g' := by
  have horder : ∀ stack, OrderStack.order g' stack = OrderStack.order g stack := by
    intro stack
    cases stack with
    | initialized => exact hinit
    | started => exact hstarted
  refine ⟨hcomps ▸ h.components_le, fun stack => ?_, fun stack e he => ?_⟩
  · rw [horder]
    exact h.nodup stack
  · rw [horder] at he
    rw [hcomps]
    exact h.mem stack e he

/-- A duplicate-free list of components of the table fits into the array. -/
theorem StacksInv.length_le (h : StacksInv g) {l : List ComponentDesc} (hnodup : (ids l).Nodup)
    (hmem : ∀ e ∈ l, e ∈ g.components) : l.length ≤ componentMaxCount := by
  have hsub : l.Subperm g.components := List.subperm_of_subset (List.Nodup.of_map _ hnodup) hmem
  exact hsub.length_le.trans h.components_le

theorem order_push (stack stack' : OrderStack) (c : ComponentDesc) (g : Lifecycle) :
    stack'.order (lifecycleCode.write (stack.push c) g) =
      if stack' = stack then c :: stack.order g else stack'.order g := by
  cases stack <;> cases stack' <;> rfl

theorem order_pop (stack stack' : OrderStack) (g : Lifecycle) :
    stack'.order (lifecycleCode.write stack.pop g) =
      if stack' = stack then (stack.order g).tail else stack'.order g := by
  cases stack <;> cases stack' <;> rfl

/-- A push of a component that is not on the stack. -/
theorem StacksInv.push (h : StacksInv g) (stack : OrderStack) (hid : c.id ∉ ids (stack.order g))
    (hc : c ∈ g.components) : StacksInv (lifecycleCode.write (stack.push c) g) := by
  have hcomps : (lifecycleCode.write (stack.push c) g).components = g.components := by
    cases stack <;> rfl
  refine ⟨hcomps ▸ h.components_le, fun stack' => ?_, fun stack' e he => ?_⟩
  · rw [order_push]
    split
    · exact List.nodup_cons.mpr ⟨hid, h.nodup stack⟩
    · exact h.nodup stack'
  · rw [order_push] at he
    rw [hcomps]
    split at he
    · rcases List.mem_cons.mp he with rfl | he
      · exact hc
      · exact h.mem stack e he
    · exact h.mem stack' e he

theorem StacksInv.pop (h : StacksInv g) (stack : OrderStack) :
    StacksInv (lifecycleCode.write stack.pop g) := by
  have hcomps : (lifecycleCode.write stack.pop g).components = g.components := by
    cases stack <;> rfl
  refine ⟨hcomps ▸ h.components_le, fun stack' => ?_, fun stack' e he => ?_⟩
  · rw [order_pop]
    split
    · exact (h.nodup stack).sublist ((List.tail_sublist _).map _)
    · exact h.nodup stack'
  · rw [order_pop] at he
    rw [hcomps]
    split at he
    · exact h.mem stack e (List.mem_of_mem_tail he)
    · exact h.mem stack' e he

/-- A write to a slot, or a deinit call. -/
def Op.slotOnly : Op → Bool
  | .update .. | .keep .. | .setInitialized .. | .setStarted .. | .deinit _ => true
  | _ => false

/-- A write to a slot leaves the stacks alone. -/
theorem StacksInv.write (h : StacksInv g) (ho : o.slotOnly = true) :
    o.Stacks g ∧ StacksInv (lifecycleCode.write o g) := by
  have hstacks : o.Stacks g := by
    constructor
    · rintro stack c rfl
      cases stack <;> cases ho
    · rintro stack rfl
      cases stack <;> cases ho
  refine ⟨hstacks, ?_⟩
  cases o with
  | collect sec => cases ho
  | pushInitialized c => cases ho
  | popInitialized => cases ho
  | pushStarted c => cases ho
  | popStarted => cases ho
  | _ => exact h.congr rfl rfl rfl

/-- `collect_components` leaves a table that fits, and empty stacks, or nothing changed. -/
theorem StacksInv.collect (h : StacksInv g) (sec : LinkSection) :
    StacksInv (collectComponents sec g).2 := by
  unfold collectComponents
  split
  · exact h
  split
  · exact h
  rename_i hcount
  refine ⟨?_, fun stack => ?_, fun stack e he => ?_⟩
  · have hentries : sec.entries.length = sec.count := by
      rw [LinkSection.entries, List.length_map, List.length_range]
    exact (List.length_filter_le _ _).trans (hentries ▸ Nat.le_of_not_lt hcount)
  · cases stack <;> exact List.nodup_nil
  · cases stack <;> cases he

/-! ## Every write keeps the stacks in order -/

section Programs

variable {phase : Nat} {phases : List Nat} {rest : List ComponentDesc} {round : Round}

theorem wp_after_stacks (ret : SysErr) (p : Place) (h : StacksInv g) :
    lifecycleCode.wp stacksContract (if ret ≠ .ok then haltSteps ret else .done p) g := by
  split
  · exact ⟨h, trivial⟩
  · exact ⟨h, trivial⟩

theorem wp_releaseSteps_stacks {next : Steps} (h : StacksInv g)
    (hnext : ∀ g', StacksInv g' → lifecycleCode.wp stacksContract next g') :
    lifecycleCode.wp stacksContract (releaseSteps c next) g := by
  have hdeinit := h.write (o := .deinit c.id) rfl
  have hflag := hdeinit.2.write (o := .setInitialized c.id false) rfl
  exact ⟨h, hdeinit.1, hdeinit.2, hflag.1, hnext _ hflag.2⟩

theorem wp_handleDependencyFailureSteps_stacks {k : SysErr → Steps} (h : StacksInv g)
    (hk : ∀ ret g', StacksInv g' → lifecycleCode.wp stacksContract (k ret) g') :
    lifecycleCode.wp stacksContract (handleDependencyFailureSteps c k) g := by
  have hskip := h.write (o := .update c.id .skipped .dependency) rfl
  exact ⟨h, hskip.1, hk _ _ hskip.2⟩

theorem wp_scanComponent_stacks (h : StacksInv g) :
    lifecycleCode.wp stacksContract (scanComponentSteps phase c round g haltSteps fun round =>
      .done (.scan phase phases rest round)) g := by
  unfold scanComponentSteps
  split
  · exact ⟨h, trivial⟩
  dsimp only
  split
  · exact wp_handleDependencyFailureSteps_stacks h fun ret g' h' => wp_after_stacks ret _ h'
  · split
    · exact ⟨h, trivial⟩
    · exact ⟨h, trivial⟩
  · exact ⟨h, trivial⟩

/-- The candidate of a scan is not on the stack of the initialized ones. -/
theorem wp_initializeCandidate_stacks (h : StacksInv g) (hini : Initializing g)
    (hscan : Scanning g [] round) (hcand : round.candidate = some c) :
    lifecycleCode.wp stacksContract (initializeComponentSteps c fun ret =>
      if ret ≠ .ok then haltSteps ret else .done (.round phase phases)) g := by
  obtain ⟨hc, -, hst, -⟩ := hscan.candidate c hcand
  have hid : c.id ∉ ids (OrderStack.order g .initialized) := hini.not_mem hst
  have hbegin := h.write (o := .update c.id .initializing .ok) rfl
  have hstate : ((lifecycleCode.write (.update c.id .initializing .ok) g).runtime c.id).state =
      .initializing := by
    show ((updateState c.id .initializing .ok g).runtime c.id).state = _
    rw [updateState, Lifecycle.modify_runtime_self]
  refine ⟨h, hbegin.1, hbegin.2, trivial, fun ret => ?_⟩
  have hcalled : StacksInv (lifecycleCode.answer (.init c) ret
      (lifecycleCode.write (.update c.id .initializing .ok) g)) := hbegin.2.congr rfl rfl rfl
  beta_reduce
  split
  · have hfailed := hcalled.write (o := .update c.id .failed ret) rfl
    exact ⟨hcalled, hfailed.1, wp_after_stacks _ _ hfailed.2⟩
  · have hflag := hcalled.write (o := .setInitialized c.id true) rfl
    have hpushed := hflag.2.push .initialized hid hc
    have hend := hpushed.write (o := .update c.id .initialized .ok) rfl
    refine ⟨hcalled, hflag.1, hflag.2, ⟨?_, ?_⟩, hpushed, hend.1, wp_after_stacks _ _ hend.2⟩
    · rintro stack e heq
      cases stack with
      | started => cases heq
      | initialized =>
          obtain rfl : c = e := Op.pushInitialized.inj heq
          refine ⟨?_, hid, hc⟩
          show ((setInitialized c.id true _).runtime c.id).state = _
          rw [setInitialized, Lifecycle.modify_runtime_self]
          exact hstate
    · rintro stack heq
      cases stack <;> cases heq

/-- Nor is a component that is about to be started on the stack of the started ones. -/
theorem wp_startNext_stacks (h : StacksInv g) (hstart : Starting g (c :: rest)) :
    lifecycleCode.wp stacksContract (startComponentSteps c fun ret =>
      if ret ≠ .ok then haltSteps ret else .done (.startLoop rest)) g := by
  have hc : c ∈ g.components := hstart.coherent.initialized_order.mem c hstart.head
  have hid : c.id ∉ ids (OrderStack.order g .started) := by
    intro hmem
    have hrun := (hstart.coherent.running_iff c.id).mpr hmem
    rw [hstart.waiting c List.mem_cons_self] at hrun
    cases hrun
  refine ⟨h, ?_⟩
  split
  · apply wp_handleDependencyFailureSteps_stacks h
    intro ret g' h'
    split
    · refine ⟨h', ?_⟩
      split
      · exact wp_releaseSteps_stacks h' fun g'' h'' => wp_after_stacks ret _ h''
      · exact wp_after_stacks ret _ h'
    · exact wp_after_stacks ret _ h'
  · have hbegin := h.write (o := .update c.id .starting .ok) rfl
    have hstate : ((lifecycleCode.write (.update c.id .starting .ok) g).runtime c.id).state =
        .starting := by
      show ((updateState c.id .starting .ok g).runtime c.id).state = _
      rw [updateState, Lifecycle.modify_runtime_self]
    refine ⟨h, hbegin.1, hbegin.2, trivial, fun a => ?_⟩
    have hcalled : StacksInv (lifecycleCode.answer (.start c) a
        (lifecycleCode.write (.update c.id .starting .ok) g)) := hbegin.2.congr rfl rfl rfl
    dsimp only
    split
    · have hfailed := hcalled.write (o := .update c.id .failed ((Request.start c).result a)) rfl
      refine ⟨hcalled, hfailed.1, ?_⟩
      split
      · exact ⟨hfailed.2, trivial⟩
      · exact wp_releaseSteps_stacks hfailed.2 fun g' h' => wp_after_stacks .ok _ h'
    · have hflag := hcalled.write (o := .setStarted c.id true) rfl
      have hpushed := hflag.2.push .started hid hc
      have hend := hpushed.write (o := .update c.id .running .ok) rfl
      refine ⟨hcalled, hflag.1, hflag.2, ⟨?_, ?_⟩, hpushed, hend.1, wp_after_stacks _ _ hend.2⟩
      · rintro stack e heq
        cases stack with
        | initialized => cases heq
        | started =>
            obtain rfl : c = e := Op.pushStarted.inj heq
            refine ⟨?_, hid, hc⟩
            show ((setStarted c.id true _).runtime c.id).state = _
            rw [setStarted, Lifecycle.modify_runtime_self]
            exact hstate
      · rintro stack heq
        cases stack <;> cases heq

/-- Between two lifecycle steps nobody is at work. -/
theorem Coherent.popStacks (h : Coherent g) (stack : OrderStack) : stack.pop.Stacks g := by
  constructor
  · rintro stack' e heq
    cases stack <;> cases stack' <;> cases heq
  · rintro stack' heq i
    obtain ⟨hinitializing, hstarting, -⟩ := (h.slots i).settled
    cases stack' with
    | initialized => exact hinitializing
    | started => exact hstarting

theorem wp_stopNext_stacks {caller : Caller} {firstError : SysErr} (h : StacksInv g)
    (hcoherent : Coherent g) :
    lifecycleCode.wp stacksContract (.write .popStarted <| stopComponentSteps c fun ret =>
      .done (.stopLoop caller (if ret ≠ .ok ∧ firstError = .ok then ret else firstError))) g := by
  have hpopped := h.pop .started
  have hstopping := hpopped.write (o := .keep c.id .stopping) rfl
  refine ⟨h, hcoherent.popStacks .started, hpopped, hstopping.1, hstopping.2, trivial, fun a => ?_⟩
  have hcalled : StacksInv (lifecycleCode.answer (.stop c) a (lifecycleCode.write
      (.keep c.id .stopping) (lifecycleCode.write .popStarted g))) :=
    hstopping.2.congr rfl rfl rfl
  have hflag := hcalled.write (o := .setStarted c.id false) rfl
  refine ⟨hcalled, hflag.1, ?_⟩
  dsimp only
  split
  · have hend := hflag.2.write (o := .update c.id .failed ((Request.stop c).result a)) rfl
    exact ⟨hflag.2, hend.1, hend.2, trivial⟩
  · have hend := hflag.2.write (o := .keep c.id .stopped) rfl
    exact ⟨hflag.2, hend.1, hend.2, trivial⟩

theorem wp_deinitNext_stacks {caller : Caller} {ret : SysErr} (h : StacksInv g)
    (hcoherent : Coherent g) :
    lifecycleCode.wp stacksContract (.write .popInitialized <|
      deinitializeComponentSteps c (.done (.deinitLoop caller ret))) g := by
  have hpopped := h.pop .initialized
  refine ⟨h, hcoherent.popStacks .initialized, hpopped, ?_⟩
  split
  · refine wp_releaseSteps_stacks hpopped fun g' h' => ⟨h', ?_⟩
    split
    · have hend := h'.write (o := .keep c.id .stopped) rfl
      exact ⟨h', hend.1, hend.2, trivial⟩
    · exact ⟨h', trivial⟩
  · exact ⟨hpopped, trivial⟩

end Programs

/-- The component framework keeps its stacks in order, and its contract. -/
theorem lifecycle_meets_stacks :
    lifecycleCode.Meets (lifecycleContract.and stacksContract) := by
  refine lifecycle_meets.and ?_ ?_
  · rintro p g ⟨rfl, rfl⟩
    refine ⟨⟨Nat.zero_le _, fun stack => ?_, fun stack e he => ?_⟩, trivial⟩
    · cases stack <;> exact List.nodup_nil
    · cases stack <;> cases he
  · intro p i g t hgood hp henter
    have h : StacksInv g := hgood.2
    rcases enter_input henter with ⟨last, rfl⟩ | rfl
    · cases i with
      | startAll sec =>
          obtain rfl := Option.some.inj henter
          refine ⟨h, ⟨?_, ?_⟩, h.collect sec, trivial⟩
          · rintro stack e heq
            cases stack <;> cases heq
          · rintro stack heq
            cases stack <;> cases heq
      | stopAll =>
          obtain rfl := Option.some.inj henter
          exact ⟨h, trivial⟩
      | go => cases henter
    cases p with
    | idle last => cases henter
    | phaseLoop phases =>
        cases phases <;> (obtain rfl := Option.some.inj henter; exact ⟨h, trivial⟩)
    | round phase phases =>
        obtain rfl := Option.some.inj henter
        exact ⟨h, trivial⟩
    | scan phase phases rest round =>
        cases rest with
        | cons c rest =>
            obtain rfl := Option.some.inj henter
            exact wp_scanComponent_stacks h
        | nil =>
            simp only [lifecycleCode, enter] at henter
            split at henter
            · obtain rfl := Option.some.inj henter
              exact ⟨h, trivial⟩
            split at henter
            · split at henter
              · obtain rfl := Option.some.inj henter
                exact ⟨h, trivial⟩
              · obtain rfl := Option.some.inj henter
                exact ⟨h, trivial⟩
            · rename_i hcand
              obtain rfl := Option.some.inj henter
              exact wp_initializeCandidate_stacks h hp.1.1 hp.1.2 hcand
    | startLoop rest =>
        cases rest with
        | nil =>
            obtain rfl := Option.some.inj henter
            exact ⟨h, trivial⟩
        | cons c rest =>
            obtain rfl := Option.some.inj henter
            exact wp_startNext_stacks h hp.1
    | stopLoop caller firstError =>
        simp only [lifecycleCode, enter] at henter
        split at henter
        · obtain rfl := Option.some.inj henter
          exact ⟨h, trivial⟩
        · obtain rfl := Option.some.inj henter
          exact wp_stopNext_stacks h hp.1
    | deinitLoop caller ret =>
        simp only [lifecycleCode, enter] at henter
        split at henter
        · obtain rfl := Option.some.inj henter
          exact ⟨h, trivial⟩
        · obtain rfl := Option.some.inj henter
          exact wp_deinitNext_stacks h hp.1.1

end Stacks

/-! ## Every component is pushed once -/

/-- A step of the framework: the point before it, its event, and the point after it. -/
abbrev FrameworkStep := (Steps × Lifecycle) × Code.Event SysErr Input × (Steps × Lifecycle)

/-- What a write pushes on the stack. -/
def Op.pushedOn (stack : OrderStack) : Op → List ComponentDesc
  | .pushInitialized c => if stack = .initialized then [c] else []
  | .pushStarted c => if stack = .started then [c] else []
  | _ => []

/-- What was pushed on the stack after a step, `pushed` being what was before. -/
def OrderStack.pushedAfter (stack : OrderStack) (pushed : List ComponentDesc)
    (x : FrameworkStep) : List ComponentDesc :=
  match x.1.1 with
  | .write (.collect _) _ => []
  | .write o _ => pushed ++ o.pushedOn stack
  | _ => pushed

/-- What was pushed on the stack since the last `start_all` collected its components, oldest
    first. -/
def OrderStack.pushed (stack : OrderStack) (path : List FrameworkStep) : List ComponentDesc :=
  path.foldl stack.pushedAfter []

/-- Whoever was pushed is done with the state it was pushed in, or still in it and on the
    stack. -/
structure PushedInv (stack : OrderStack) (pushed : List ComponentDesc) (g : Lifecycle) : Prop where
  nodup : (ids pushed).Nodup
  mem : ∀ c ∈ pushed, c ∈ g.components
  past : ∀ c ∈ pushed, stack.working.rank < (g.runtime c.id).state.rank ∨
    ((g.runtime c.id).state = stack.working ∧ c.id ∈ ids (stack.order g))

section Pushed

variable {g g' : Lifecycle} {c : ComponentDesc} {stack : OrderStack} {o : Op} {t t' : Steps}
  {pushed : List ComponentDesc}

/-- States change upwards only, and strictly when a component is at work. -/
theorem rank_le_of_transition {s s' : ComponentState} (h : s' ∈ transitions s) :
    s.rank ≤ s'.rank := by
  cases s <;> cases s' <;> first | decide | (revert h; decide)

theorem rank_lt_of_transition {s' : ComponentState} (h : s' ∈ transitions stack.working) :
    stack.working.rank < s'.rank := by
  cases stack <;> cases s' <;> first | decide | (revert h; decide)

/-- The table stays as long as nothing is collected. -/
theorem write_components (hcollect : ∀ sec, o ≠ .collect sec) :
    (lifecycleCode.write o g).components = g.components := by
  cases o with
  | collect sec => exact absurd rfl (hcollect sec)
  | _ => rfl

/-- What is on a stack stays there until it is popped. -/
theorem mem_order_write (hcollect : ∀ sec, o ≠ .collect sec) (hpop : o ≠ stack.pop)
    (hc : c.id ∈ ids (stack.order g)) : c.id ∈ ids (stack.order (lifecycleCode.write o g)) := by
  cases o with
  | collect sec => exact absurd rfl (hcollect sec)
  | pushInitialized e =>
      cases stack with
      | initialized => exact List.mem_cons_of_mem _ hc
      | started => exact hc
  | popInitialized =>
      cases stack with
      | initialized => exact absurd rfl hpop
      | started => exact hc
  | pushStarted e =>
      cases stack with
      | initialized => exact hc
      | started => exact List.mem_cons_of_mem _ hc
  | popStarted =>
      cases stack with
      | initialized => exact hc
      | started => exact absurd rfl hpop
  | _ => cases stack <;> exact hc

/-- A write keeps what is known of the components pushed before it. -/
theorem PushedInv.past_write (h : PushedInv stack pushed g) (hcollect : ∀ sec, o ≠ .collect sec)
    (hcontract : lifecycleContract.write o g) (hstacks : o.Stacks g) (hc : c ∈ pushed) :
    stack.working.rank < ((lifecycleCode.write o g).runtime c.id).state.rank ∨
      (((lifecycleCode.write o g).runtime c.id).state = stack.working ∧
        c.id ∈ ids (stack.order (lifecycleCode.write o g))) := by
  have hstate : ((lifecycleCode.write o g).runtime c.id).state = (g.runtime c.id).state ∨
      ((lifecycleCode.write o g).runtime c.id).state ∈ transitions (g.runtime c.id).state :=
    Op.apply_state hcollect hcontract c.id
  rcases h.past c hc with hlater | ⟨hworking, hmem⟩
  · rcases hstate with hsame | hmoved
    · exact Or.inl (hsame ▸ hlater)
    · exact Or.inl (hlater.trans_le (rank_le_of_transition hmoved))
  · rcases hstate with hsame | hmoved
    · -- still at work: nothing is popped meanwhile
      refine Or.inr ⟨hsame.trans hworking, mem_order_write hcollect ?_ hmem⟩
      intro hpop
      exact hstacks.pop stack hpop c.id hworking
    · rw [hworking] at hmoved
      exact Or.inl (rank_lt_of_transition hmoved)

theorem pushedOn_cases (stack : OrderStack) (o : Op) :
    o.pushedOn stack = [] ∨ ∃ c, o = stack.push c ∧ o.pushedOn stack = [c] := by
  cases o with
  | pushInitialized c =>
      cases stack with
      | initialized => exact Or.inr ⟨c, rfl, rfl⟩
      | started => exact Or.inl rfl
  | pushStarted c =>
      cases stack with
      | initialized => exact Or.inl rfl
      | started => exact Or.inr ⟨c, rfl, rfl⟩
  | _ => exact Or.inl rfl

/-- A write pushes nobody who was pushed before. -/
theorem PushedInv.write (h : PushedInv stack pushed g) (hcollect : ∀ sec, o ≠ .collect sec)
    (hcontract : lifecycleContract.write o g) (hstacks : o.Stacks g) :
    PushedInv stack (pushed ++ o.pushedOn stack) (lifecycleCode.write o g) := by
  have hcomps := write_components (g := g) hcollect
  have hpast := fun e he => h.past_write (c := e) hcollect hcontract hstacks he
  rcases pushedOn_cases stack o with hnone | ⟨c, hpush, hone⟩
  · rw [hnone, List.append_nil]
    exact ⟨h.nodup, fun e he => hcomps ▸ h.mem e he, hpast⟩
  · obtain ⟨hworking, hnot, hc⟩ := hstacks.push stack c hpush
    -- who was pushed before is past this state, or on the stack
    have hnew : c.id ∉ ids pushed := by
      intro hmem
      obtain ⟨e, he, hid⟩ := List.mem_map.mp hmem
      rcases h.past e he with hlater | ⟨-, hon⟩
      · rw [hid, hworking] at hlater
        exact lt_irrefl _ hlater
      · exact hnot (hid ▸ hon)
    rw [hone]
    refine ⟨?_, fun e he => ?_, fun e he => ?_⟩
    · rw [ids, List.map_append]
      refine List.nodup_append.mpr ⟨h.nodup, List.nodup_singleton _, fun a ha b hb hab => ?_⟩
      obtain rfl : b = c.id := List.mem_singleton.mp hb
      exact hnew (hab ▸ ha)
    · rw [hcomps]
      rcases List.mem_append.mp he with he | he
      · exact h.mem e he
      · exact List.mem_singleton.mp he ▸ hc
    · rcases List.mem_append.mp he with he | he
      · exact hpast e he
      · obtain rfl := List.mem_singleton.mp he
        right
        subst hpush
        rw [order_push, if_pos rfl]
        refine ⟨?_, List.mem_cons_self⟩
        cases stack <;> exact hworking

theorem pushedInv_nil (stack : OrderStack) (g : Lifecycle) : PushedInv stack [] g :=
  ⟨List.nodup_nil, fun _ h => (List.not_mem_nil h).elim, fun _ h => (List.not_mem_nil h).elim⟩

/-- A step that writes nothing to the table. -/
theorem PushedInv.congr (h : PushedInv stack pushed g) (hcomps : g'.components = g.components)
    (hruntime : g'.runtime = g.runtime) (horder : stack.order g' = stack.order g) :
    PushedInv stack pushed g' := by
  refine ⟨h.nodup, fun e he => hcomps ▸ h.mem e he, fun e he => ?_⟩
  rw [hruntime, horder]
  exact h.past e he

theorem PushedInv.step {e : Code.Event SysErr Input} (h : PushedInv stack pushed g)
    (hwp : lifecycleCode.wp (lifecycleContract.and stacksContract) t g)
    (hstep : lifecycleCode.next (t, g) e = some (t', g')) :
    PushedInv stack (stack.pushedAfter pushed ((t, g), e, (t', g'))) g' := by
  cases t with
  | write o u =>
      cases e with
      | step =>
          obtain ⟨-, rfl⟩ := Prod.mk.inj (Option.some.inj hstep)
          by_cases hcollect : ∃ sec, o = .collect sec
          · obtain ⟨sec, rfl⟩ := hcollect
            exact pushedInv_nil stack _
          · have hne : ∀ sec, o ≠ .collect sec := fun sec heq => hcollect ⟨sec, heq⟩
            have hafter : stack.pushedAfter pushed
                ((.write o u, g), .step, (t', lifecycleCode.write o g)) =
                  pushed ++ o.pushedOn stack := by
              cases o with
              | collect sec => exact absurd rfl (hne sec)
              | _ => rfl
            rw [hafter]
            exact h.write hne hwp.write.1 hwp.write.2
      | _ => cases hstep
  | done p =>
      cases e with
      | input i =>
          obtain ⟨u, -, heq⟩ := Option.map_eq_some_iff.mp hstep
          obtain ⟨-, rfl⟩ := Prod.mk.inj heq
          exact h
      | _ => cases hstep
  | call r k =>
      cases e with
      | answer a =>
          obtain ⟨-, rfl⟩ := Prod.mk.inj (Option.some.inj hstep)
          exact h.congr rfl rfl (by cases stack <;> rfl)
      | _ => cases hstep
  | test b yes no =>
      cases e with
      | step =>
          obtain ⟨-, rfl⟩ := Prod.mk.inj (Option.some.inj hstep)
          exact h
      | _ => cases hstep

theorem pushedInv_of_path {path : List FrameworkStep}
    (h : lifecycleCode.machine.Path path (t, g)) (stack : OrderStack) :
    PushedInv stack (stack.pushed path) g := by
  have hinv : PushedInv stack (stack.pushed path) (t, g).2 := by
    refine h.invariant (I := fun path x => PushedInv stack (stack.pushed path) x.2) ?_ ?_
    · intro s _
      exact pushedInv_nil stack s.2
    · rintro path ⟨t, g⟩ e ⟨t', g'⟩ hpath ih hstep
      rw [OrderStack.pushed, List.foldl_append]
      exact ih.step (lifecycle_meets_stacks.reachable hpath.reachable) hstep
  exact hinv

/-! ## The phases end, the stacks fit -/

/-- In every state a run of the framework goes through, whatever set of descriptors it has
    collected and whatever the callbacks have returned: the loop of `initialize_phase` returns
    within one round more than there are DISCOVERED components of its phase, as every round that
    goes on takes one of them out of DISCOVERED and brings none back; since `start_all` collected
    its components none was pushed twice on an order stack; and the stacks stay within their
    arrays, also at the next push. -/
theorem initializePhase_ends {path : List FrameworkStep}
    (h : lifecycleCode.machine.Path path (t, g)) :
    (∀ cb phase,
      (∃ result, ∀ fuel, (g.discoveredOf phase).length + 1 ≤ fuel →
        initializePhase cb phase fuel g = some result) ∧
      ∀ g', phaseRound cb phase g = (none, g') →
        NoneRediscovered g g' ∧ Resolves phase g.components g g') ∧
    ∀ stack : OrderStack,
      (ids (stack.pushed path)).Nodup ∧ (stack.pushed path).length ≤ componentMaxCount ∧
      (stack.order g).length ≤ componentMaxCount ∧
      ∀ c u, t = .write (stack.push c) u → (stack.order g).length < componentMaxCount := by
  have hwp := lifecycle_meets_stacks.reachable h.reachable
  have hinv : StacksInv g := hwp.good.2
  refine ⟨fun cb phase => ⟨initializePhase_returns cb phase g, fun g' => phaseRound_resolves⟩,
    fun stack => ?_⟩
  have hpushed := pushedInv_of_path h stack
  refine ⟨hpushed.nodup, hinv.length_le hpushed.nodup hpushed.mem,
    hinv.length_le (hinv.nodup stack) (hinv.mem stack), fun c u heq => ?_⟩
  subst heq
  obtain ⟨-, hid, hc⟩ := hwp.write.2.push stack c rfl
  -- the stack with the new component still fits
  have hnodup : (ids (c :: stack.order g)).Nodup := List.nodup_cons.mpr ⟨hid, hinv.nodup stack⟩
  refine hinv.length_le hnodup fun e he => ?_
  rcases List.mem_cons.mp he with rfl | he
  · exact hc
  · exact hinv.mem stack e he

/-- Components 2 and 3 wait for each other: the phase ends within four rounds. -/
theorem initializePhase_ends_cycle :
    let sec := LinkSection.ofList
      [.core 2 policyRequired [3], .core 3 policyRequired [2], .core 4 policyOptional []]
    let g := (collectComponents sec .zero).2
    (g.discoveredOf 0).length = 3 ∧
      ∃ result, initializePhase (.failing [] []) 0 4 g = some result := by
  intro sec g
  have hcount : (g.discoveredOf 0).length = 3 := by decide
  have hcollect : lifecycleCode.Leads (.idle .nothing) .zero
      (.phaseLoop (List.range phaseCount)) g := by
    have hok : (collectComponents sec .zero).1 = .ok := by decide
    refine Code.Leads.enter (i := .startAll sec) (Callbacks.failing [] []).answer rfl ?_
    show (if (collectComponents sec .zero).1 ≠ .ok then
      Place.idle (.rejected (collectComponents sec .zero).1) else _, _) = _
    rw [if_neg (not_not_intro hok)]
    rfl
  obtain ⟨path, hpath⟩ := (hcollect.reachable (Code.reachable_start ⟨rfl, rfl⟩)).exists_path
  obtain ⟨result, hresult⟩ := ((initializePhase_ends hpath).1 (.failing [] []) 0).1
  exact ⟨hcount, result, hresult 4 (hcount ▸ le_rfl)⟩

end Pushed

end Component
end AppCore
