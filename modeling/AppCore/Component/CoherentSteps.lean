/-
  AppCore.Component.CoherentSteps

  Each lifecycle step executed symbolically: from a loop head where the
  invariant holds, every write goes along a legal state change, every callback
  finds what it may rely on, and the next loop head finds the invariant again.
-/

import AppCore.Component.Coherence

namespace AppCore
namespace Component

section Points

variable {g : Lifecycle} {c : ComponentDesc} {slot : ComponentRuntime} {calls : List Call}

@[simp] theorem contract_write_update (id : UInt32) (state : ComponentState) (error : SysErr) :
    lifecycleContract.write (.update id state error) g ↔
      state ∈ transitions (g.runtime id).state := by
  refine ⟨fun h => h id state rfl, fun h i s heq => ?_⟩
  obtain ⟨rfl, rfl⟩ : id = i ∧ state = s := by simpa [Op.writes] using heq
  exact h

@[simp] theorem contract_write_keep (id : UInt32) (state : ComponentState) :
    lifecycleContract.write (.keep id state) g ↔ state ∈ transitions (g.runtime id).state := by
  refine ⟨fun h => h id state rfl, fun h i s heq => ?_⟩
  obtain ⟨rfl, rfl⟩ : id = i ∧ state = s := by simpa [Op.writes] using heq
  exact h

theorem contract_write_other {o : Op} (h : o.writes = none) : lifecycleContract.write o g := by
  intro i s heq
  rw [h] at heq
  cases heq

/-- Whoever depends on a component that is not RUNNING is not up. -/
theorem Good.unused (h : Good g) {id : UInt32} (hst : (g.runtime id).state ≠ .running) :
    Unused g id := by
  intro e he _ hup hd
  exact hst (h.dependencies e he hup id hd)

theorem Good.busy_down (h : Good g) (hst : (g.runtime c.id).state ≠ .running)
    (hcalls : ∀ i, i ≠ c.id → calls.filterMap (Call.returned i) = [])
    (herror : ErrorCoherent (g.calls ++ calls) c.id slot) (hdown : ¬ Active slot.state) :
    Good (g.busy c.id slot calls) :=
  h.busy (h.unused hst) hcalls herror (fun hup => absurd hup hdown) fun hup => absurd hup hdown

theorem Good.deinit (h : Good g) (id : UInt32) : Good (lifecycleCode.write (.deinit id) g) :=
  h.congr rfl (fun _ => lastReturn_append_of_none rfl) fun _ => ⟨rfl, rfl⟩

theorem Good.setInitialized (h : Good g) (id : UInt32) (b : Bool) :
    Good (lifecycleCode.write (.setInitialized id b) g) := by
  refine h.congr rfl (fun _ => rfl) fun i => ?_
  show ((Component.setInitialized id b g).runtime i).state = _ ∧
    ((Component.setInitialized id b g).runtime i).lastError = _
  by_cases hi : i = id
  · subst hi
    simp [Component.setInitialized, Lifecycle.modify]
  · simp [Component.setInitialized, Lifecycle.modify, hi]

end Points

/-! ## The lifecycle steps -/

section Steps

variable {g : Lifecycle} {c : ComponentDesc}

theorem wp_handleDependencyFailureSteps {k : SysErr → Steps} (hg : Good g)
    (hst : .skipped ∈ transitions (g.runtime c.id).state)
    (hk : ∀ ret slot, slot.state = .skipped →
      slot.initialized = (g.runtime c.id).initialized →
      slot.started = (g.runtime c.id).started → Good (g.busy c.id slot []) →
      lifecycleCode.wp lifecycleContract (k ret) (g.busy c.id slot [])) :
    lifecycleCode.wp lifecycleContract (handleDependencyFailureSteps c k) g := by
  have hne : (g.runtime c.id).state ≠ .running := by
    intro hrun
    rw [hrun] at hst
    exact absurd hst (by decide)
  refine ⟨hg, (contract_write_update ..).mpr hst, ?_⟩
  have hwrite := write_update g c.id (g.runtime c.id) [] .skipped .dependency
  rw [Lifecycle.busy_self] at hwrite
  rw [hwrite]
  exact hk _ _ rfl rfl rfl
    (hg.busy_down hne (fun _ _ => rfl) (ErrorCoherent.of_skipped rfl rfl) (by simp [Active]))

theorem wp_initializeComponentSteps {k : SysErr → Steps} (hg : Good g)
    (hst : (g.runtime c.id).state = .discovered)
    (hdeps : ∀ d ∈ c.dependencies, (g.runtime d).initialized = true)
    (hdown : ∀ ret slot calls, slot.state = .failed →
      slot.initialized = (g.runtime c.id).initialized →
      slot.started = (g.runtime c.id).started → Good (g.busy c.id slot calls) →
      lifecycleCode.wp lifecycleContract (k ret) (g.busy c.id slot calls))
    (hup : ∀ slot calls, slot.state = .initialized → slot.initialized = true →
      slot.started = (g.runtime c.id).started → Good (g.busy c.id slot calls) →
      lifecycleCode.wp lifecycleContract (k .ok)
        ({ g with initializedOrder := c :: g.initializedOrder }.busy c.id slot calls)) :
    lifecycleCode.wp lifecycleContract (initializeComponentSteps c k) g := by
  have hne : (g.runtime c.id).state ≠ .running := by rw [hst]; decide
  have hsite : ∀ (a : SysErr) i, i ≠ c.id →
      [Call.init c.id a].filterMap (Call.returned i) = [] := by
    intro a i hi
    simp [Call.returned, Ne.symm hi]
  have hwrite := write_update g c.id (g.runtime c.id) [] .initializing .ok
  rw [Lifecycle.busy_self] at hwrite
  -- up to the call
  refine ⟨hg, (contract_write_update ..).mpr (by rw [hst]; decide), ?_⟩
  rw [hwrite]
  refine ⟨hg.busy_down hne (fun _ _ => rfl)
    (ErrorCoherent.of_ok rfl (by simp) (by simp)) (by simp [Active]), ?_, fun ret => ?_⟩
  · intro d hd
    by_cases hid : d = c.id
    · have hflag := hdeps d hd
      rw [hid] at hflag ⊢
      simpa using hflag
    · rw [Lifecycle.busy_runtime_of_ne _ _ _ _ hid]
      exact hdeps d hd
  -- after the call
  rw [answer_busy, List.nil_append]
  beta_reduce
  have hpoint : ∀ slot : ComponentRuntime, slot.lastError = .ok → slot.state ≠ .failed →
      slot.state ≠ .skipped → ¬ Active slot.state →
      Good (g.busy c.id slot [.init c.id ret]) := fun slot herr hf hs hnot =>
    hg.busy_down hne (hsite ret) (ErrorCoherent.of_ok herr hf hs) hnot
  by_cases hret : ret = .ok
  · subst hret
    rw [if_neg (not_not_intro rfl)]
    refine ⟨hpoint _ rfl (by simp) (by simp) (by simp [Active]), contract_write_other rfl, ?_⟩
    rw [show (Request.init c).site .ok = .init c.id .ok from rfl, write_setInitialized]
    have hpush := hpoint { g.runtime c.id with
      state := .initializing, lastError := .ok, initialized := true } rfl (by simp) (by simp)
      (by simp [Active])
    refine ⟨hpush, contract_write_other rfl, ?_⟩
    rw [write_pushInitialized]
    refine ⟨⟨hpush.dependencies, hpush.errors⟩, (contract_write_update ..).mpr ?_, ?_⟩
    · simp [transitions]
    · rw [write_update]
      exact hup _ _ rfl rfl rfl (hpoint _ rfl (by simp) (by simp) (by simp [Active]))
  · rw [if_pos hret]
    refine ⟨hpoint _ rfl (by simp) (by simp) (by simp [Active]),
      (contract_write_update ..).mpr ?_, ?_⟩
    · simp [transitions]
    · rw [write_update]
      refine hdown _ _ _ rfl rfl rfl (hg.busy_down hne (hsite ret) ?_ (by simp [Active]))
      exact ErrorCoherent.of_failed hret rfl rfl (by simp [lastReturn, Call.returned, Request.site,
        Request.result])

theorem wp_releaseSteps {next : Steps} (hg : Good g)
    (hnext : Good (lifecycleCode.write (.setInitialized c.id false)
        (lifecycleCode.write (.deinit c.id) g)) →
      lifecycleCode.wp lifecycleContract next (lifecycleCode.write (.setInitialized c.id false)
        (lifecycleCode.write (.deinit c.id) g))) :
    lifecycleCode.wp lifecycleContract (releaseSteps c next) g :=
  ⟨hg, contract_write_other rfl, hg.deinit c.id, contract_write_other rfl,
    hnext ((hg.deinit c.id).setInitialized c.id false)⟩

theorem wp_startComponentSteps {k : SysErr → Steps} (hg : Good g)
    (hc : ∀ e ∈ g.components, e.id = c.id → e = c)
    (hst : (g.runtime c.id).state = .initialized)
    (hready : checkDependencies g c true = .ready →
      ∀ d ∈ c.dependencies, (g.runtime d).state = .running)
    (hdown : ∀ ret slot calls, slot.state = .failed ∨ slot.state = .skipped →
      slot.started = (g.runtime c.id).started → Good (g.busy c.id slot calls) →
      lifecycleCode.wp lifecycleContract (k ret) (g.busy c.id slot calls))
    (hup : ∀ slot calls, (∀ d ∈ c.dependencies, (g.runtime d).state = .running) →
      slot.state = .running → slot.started = true → Good (g.busy c.id slot calls) →
      lifecycleCode.wp lifecycleContract (k .ok)
        ({ g with startedOrder := c :: g.startedOrder }.busy c.id slot calls)) :
    lifecycleCode.wp lifecycleContract (startComponentSteps c k) g := by
  have hne : (g.runtime c.id).state ≠ .running := by rw [hst]; decide
  refine ⟨hg, ?_⟩
  split
  -- a dependency is down
  · apply wp_handleDependencyFailureSteps hg (by rw [hst]; decide)
    intro ret slot hskip _ hstarted hgood
    have hrel : ∀ ret, lifecycleCode.wp lifecycleContract (releaseSteps c (k ret))
        (g.busy c.id slot []) := by
      intro ret
      refine wp_releaseSteps hgood fun hend => ?_
      rw [write_deinit, write_setInitialized] at hend ⊢
      exact hdown ret _ _ (Or.inr hskip) hstarted hend
    split
    · refine ⟨hgood, ?_⟩
      split
      · exact hrel ret
      · exact hdown ret slot [] (Or.inr hskip) hstarted hgood
    · exact hdown ret slot [] (Or.inr hskip) hstarted hgood
  -- all dependencies are RUNNING
  · rename_i hdeps
    have hrun := hready (by simpa using hdeps)
    have hsupported : Supported g c := by
      intro d hd
      refine ⟨hrun d hd, ?_⟩
      rintro rfl
      exact hne (hrun _ hd)
    have hpoint : ∀ slot calls, (∀ i, i ≠ c.id → calls.filterMap (Call.returned i) = []) →
        ErrorCoherent (g.calls ++ calls) c.id slot → Good (g.busy c.id slot calls) :=
      fun slot calls hcalls herr =>
        hg.busy (hg.unused hne) hcalls herr (fun _ => hsupported) fun _ => hc
    have hwrite := write_update g c.id (g.runtime c.id) [] .starting .ok
    rw [Lifecycle.busy_self] at hwrite
    refine ⟨hg, (contract_write_update ..).mpr (by rw [hst]; decide), ?_⟩
    rw [hwrite]
    refine ⟨hpoint _ _ (fun _ _ => rfl) (ErrorCoherent.of_ok rfl (by simp) (by simp)), ?_,
      fun a => ?_⟩
    · intro d hd
      rw [Lifecycle.busy_runtime_of_ne _ _ _ _ (hsupported d hd).2]
      exact hrun d hd
    rw [answer_busy, List.nil_append]
    dsimp only
    have hsite : ∀ i, i ≠ c.id →
        [(Request.start c).site a].filterMap (Call.returned i) = [] := by
      intro i hi
      simp [Call.returned, Request.site, Ne.symm hi]
    split
    -- the start failed
    · rename_i hret
      have hlast : lastReturn (g.calls ++ [(Request.start c).site a]) c.id =
          some ((Request.start c).result a) := by
        simp [lastReturn, Call.returned, Request.site]
      have hfailed := hpoint { g.runtime c.id with
        state := .failed, lastError := (Request.start c).result a } _ hsite
        (ErrorCoherent.of_failed hret rfl rfl hlast)
      refine ⟨hpoint _ _ hsite (ErrorCoherent.of_ok rfl (by simp) (by simp)),
        (contract_write_update ..).mpr (by simp [transitions]), ?_⟩
      rw [write_update]
      split
      · exact hdown _ _ _ (Or.inl rfl) rfl hfailed
      · refine wp_releaseSteps hfailed fun hend => ?_
        rw [write_deinit, write_setInitialized] at hend ⊢
        exact hdown _ _ _ (Or.inl rfl) rfl hend
    · refine ⟨hpoint _ _ hsite (ErrorCoherent.of_ok rfl (by simp) (by simp)),
        contract_write_other rfl, ?_⟩
      rw [write_setStarted]
      have hpush := hpoint { g.runtime c.id with
        state := .starting, lastError := .ok, started := true } _ hsite
        (ErrorCoherent.of_ok rfl (by simp) (by simp))
      refine ⟨hpush, contract_write_other rfl, ?_⟩
      rw [write_pushStarted]
      refine ⟨⟨hpush.dependencies, hpush.errors⟩,
        (contract_write_update ..).mpr (by simp [transitions]), ?_⟩
      rw [write_update]
      exact hup _ _ hrun rfl rfl
        (hpoint _ _ hsite (ErrorCoherent.of_ok rfl (by simp) (by simp)))

theorem wp_stopComponentSteps {k : SysErr → Steps} (hg : Good g)
    (hc : ∀ e ∈ g.components, e.id = c.id → e = c) (hunused : Unused g c.id)
    (hsupported : Supported g c) (hst : (g.runtime c.id).state = .running)
    (hdone : ∀ ret slot calls, slot.state = .failed ∨ slot.state = .stopped →
      slot.started = false → Good (g.busy c.id slot calls) →
      lifecycleCode.wp lifecycleContract (k ret) (g.busy c.id slot calls)) :
    lifecycleCode.wp lifecycleContract (stopComponentSteps c k) g := by
  have hpoint : ∀ slot calls, (∀ i, i ≠ c.id → calls.filterMap (Call.returned i) = []) →
      ErrorCoherent (g.calls ++ calls) c.id slot → Good (g.busy c.id slot calls) :=
    fun slot calls hcalls herr => hg.busy hunused hcalls herr (fun _ => hsupported) fun _ => hc
  -- a RUNNING component shows no error, and none is written before its stop fails
  have hok : (g.runtime c.id).lastError = .ok := by
    by_contra herr
    rcases (hg.errors c.id).error_iff.mp herr with h | h <;> rw [hst] at h <;> cases h
  have hwrite := write_keep g c.id (g.runtime c.id) [] .stopping
  rw [Lifecycle.busy_self] at hwrite
  refine ⟨hg, (contract_write_keep ..).mpr (by rw [hst]; decide), ?_⟩
  rw [hwrite]
  refine ⟨hpoint _ _ (fun _ _ => rfl) (ErrorCoherent.of_ok hok (by simp) (by simp)), trivial,
    fun a => ?_⟩
  rw [answer_busy, List.nil_append]
  dsimp only
  have hsite : ∀ i, i ≠ c.id →
      [(Request.stop c).site a].filterMap (Call.returned i) = [] := by
    intro i hi
    simp [Call.returned, Request.site, Ne.symm hi]
  have hlast : lastReturn (g.calls ++ [(Request.stop c).site a]) c.id =
      some ((Request.stop c).result a) := by
    simp [lastReturn, Call.returned, Request.site]
  refine ⟨hpoint _ _ hsite (ErrorCoherent.of_ok hok (by simp) (by simp)),
    contract_write_other rfl, ?_⟩
  rw [write_setStarted]
  have hflag := hpoint { g.runtime c.id with state := .stopping, started := false } _ hsite
    (ErrorCoherent.of_ok hok (by simp) (by simp))
  split
  · rename_i hret
    refine ⟨hflag, (contract_write_update ..).mpr (by simp [transitions]), ?_⟩
    rw [write_update]
    exact hdone _ _ _ (Or.inl rfl) rfl
      (hpoint _ _ hsite (ErrorCoherent.of_failed hret rfl rfl hlast))
  · refine ⟨hflag, (contract_write_keep ..).mpr (by simp [transitions]), ?_⟩
    rw [write_keep]
    exact hdone _ _ _ (Or.inr rfl) rfl
      (hpoint _ _ hsite (ErrorCoherent.of_ok hok (by simp) (by simp)))

theorem wp_deinitializeComponentSteps {next : Steps} (hg : Good g)
    (hst : (g.runtime c.id).initialized = true →
      (g.runtime c.id).state ≠ .failed → (g.runtime c.id).state ≠ .skipped →
      (g.runtime c.id).state = .initialized ∨ (g.runtime c.id).state = .stopped)
    (hnone : (g.runtime c.id).initialized = false →
      lifecycleCode.wp lifecycleContract next g)
    (hdone : ∀ slot calls, slot.state = .failed ∨ slot.state = .skipped ∨ slot.state = .stopped →
      slot.started = (g.runtime c.id).started → Good (g.busy c.id slot calls) →
      lifecycleCode.wp lifecycleContract next (g.busy c.id slot calls)) :
    lifecycleCode.wp lifecycleContract (deinitializeComponentSteps c next) g := by
  refine ⟨hg, ?_⟩
  split
  · rename_i hflag
    refine wp_releaseSteps hg fun hend => ?_
    have hwrite := write_deinit g c.id (g.runtime c.id) []
    rw [Lifecycle.busy_self] at hwrite
    rw [hwrite, write_setInitialized] at hend ⊢
    refine ⟨hend, ?_⟩
    split
    · rename_i htest
      -- neither FAILED nor SKIPPED: INITIALIZED, or STOPPED by the stop pass
      obtain ⟨hf, hs⟩ : (g.runtime c.id).state ≠ .failed ∧ (g.runtime c.id).state ≠ .skipped := by
        simpa using htest
      have hmem : .stopped ∈ transitions (g.runtime c.id).state := by
        rcases hst hflag hf hs with h | h <;> rw [h] <;> decide
      have herr := hg.errors c.id
      have hok : (g.runtime c.id).lastError = .ok := by
        by_contra hne
        rcases herr.error_iff.mp hne with h | h
        · exact hf h
        · exact hs h
      refine ⟨hend, (contract_write_keep ..).mpr (by simpa using hmem), ?_⟩
      rw [write_keep]
      refine hdone _ _ (Or.inr (Or.inr rfl)) rfl (hg.busy_down ?_ (fun _ _ => rfl)
        (ErrorCoherent.of_ok hok (by simp) (by simp)) (by simp [Active]))
      intro hrun
      rw [hrun] at hmem
      exact absurd hmem (by decide)
    · rename_i htest
      have hdown : (g.runtime c.id).state = .failed ∨ (g.runtime c.id).state = .skipped := by
        by_contra hnot
        rw [not_or] at hnot
        exact htest (by simpa using hnot)
      refine hdone _ _ ?_ rfl hend
      rcases hdown with h | h
      · exact Or.inl h
      · exact Or.inr (Or.inl h)
  · rename_i hflag
    exact hnone (by simpa using hflag)

end Steps

/-! ## What the dependency check found -/

section Check

variable {g : Lifecycle} {deps : List UInt32}

theorem checkDependencyList_running (h : checkDependencyList g true deps = .ready) :
    ∀ d ∈ deps, (g.runtime d).state = .running := by
  induction deps with
  | nil => exact fun d hd => (List.not_mem_nil hd).elim
  | cons x rest ih =>
      simp only [checkDependencyList] at h
      cases hfind : findComponent g.components x with
      | none => simp [hfind] at h
      | some e =>
          simp only [hfind, true_and] at h
          obtain rfl := (findComponent_eq_some hfind).2
          split at h
          · cases h
          split at h
          · cases h
          rename_i _ hrun
          rw [if_neg (by simp)] at h
          intro d hd
          rcases List.mem_cons.mp hd with rfl | hd
          · exact not_not.mp hrun
          · exact ih h d hd

theorem checkDependencyList_initialized (h : checkDependencyList g false deps = .ready) :
    ∀ d ∈ deps, (g.runtime d).initialized = true := by
  induction deps with
  | nil => exact fun d hd => (List.not_mem_nil hd).elim
  | cons x rest ih =>
      simp only [checkDependencyList] at h
      cases hfind : findComponent g.components x with
      | none => simp [hfind] at h
      | some e =>
          simp only [hfind, true_and] at h
          obtain rfl := (findComponent_eq_some hfind).2
          split at h
          · cases h
          rw [if_neg (by simp)] at h
          split at h
          · cases h
          rename_i _ hflag
          intro d hd
          rcases List.mem_cons.mp hd with rfl | hd
          · exact eq_true_of_ne_false hflag
          · exact ih h d hd

/-- A start never waits once its dependencies have had their turn. -/
theorem checkDependencyList_ne_waiting (h : ∀ d ∈ deps, (g.runtime d).state = .running ∨
    (g.runtime d).state = .failed ∨ (g.runtime d).state = .skipped) :
    checkDependencyList g true deps ≠ .waiting := by
  induction deps with
  | nil => simp [checkDependencyList]
  | cons x rest ih =>
      simp only [checkDependencyList]
      cases hfind : findComponent g.components x with
      | none => simp
      | some e =>
          obtain rfl := (findComponent_eq_some hfind).2
          simp only [true_and]
          rcases h _ (List.mem_cons_self ..) with hrun | hdown
          · rw [if_neg (by simp [hrun]), if_neg (by simp [hrun]), if_neg (by simp)]
            exact ih fun d hd => h d (List.mem_cons_of_mem _ hd)
          · rw [if_pos hdown]
            decide

end Check

/-! ## The loop heads find their invariant again -/

section Places

variable {g : Lifecycle} {c : ComponentDesc} {slot : ComponentRuntime} {calls : List Call}

/-- A component that is not up and goes down leaves both stacks as they are. -/
theorem Coherent.down (h : Coherent g) (hst : (g.runtime c.id).state ≠ .running)
    (hdown : slot.state = .failed ∨ slot.state = .skipped ∨ slot.state = .stopped)
    (hstarted : slot.started = (g.runtime c.id).started) : Coherent (g.busy c.id slot calls) := by
  have hold : (g.runtime c.id).started ≠ true := fun hs => hst ((h.slots c.id).started_iff.mp hs)
  refine h.step c.id (fun i hi => g.busy_runtime_of_ne _ _ _ hi) ?_ h.initialized_order
    h.started_order (fun _ _ => id) (fun _ _ => Iff.rfl) ?_ ?_ h.accepted
  · rw [Lifecycle.busy_runtime_self]
    constructor
    · rcases hdown with h | h | h <;> rw [h] <;> decide
    · rw [hstarted]
      refine ⟨fun hs => absurd hs hold, fun hrun => ?_⟩
      rcases hdown with h | h | h <;> rw [h] at hrun <;> cases hrun
    · intro hini
      rcases hdown with h | h | h <;> rw [h] at hini <;> cases hini
    · intro hdisc
      rcases hdown with h | h | h <;> rw [h] at hdisc <;> cases hdisc
  · rw [Lifecycle.busy_runtime_self]
    refine ⟨fun hrun => ?_, fun hmem => absurd ((h.running_iff c.id).mpr hmem) hst⟩
    rcases hdown with h | h | h <;> rw [h] at hrun <;> cases hrun
  · rw [Lifecycle.busy_runtime_self]
    intro hini
    rcases hdown with h | h | h <;> rw [h] at hini <;> cases hini

theorem Initializing.down (h : Initializing g) (hst : (g.runtime c.id).state = .discovered)
    (hdown : slot.state = .failed ∨ slot.state = .skipped)
    (hflag : slot.initialized = (g.runtime c.id).initialized)
    (hstarted : slot.started = (g.runtime c.id).started) :
    Initializing (g.busy c.id slot calls) where
  coherent := by
    refine h.coherent.down (by rw [hst]; decide) ?_ hstarted
    rcases hdown with h | h
    · exact Or.inl h
    · exact Or.inr (Or.inl h)
  accepted := h.accepted
  none_started := h.none_started
  flag_iff i := by
    by_cases hi : i = c.id
    · rw [hi, Lifecycle.busy_runtime_self, hflag]
      exact h.flag_iff c.id
    · rw [Lifecycle.busy_runtime_of_ne _ _ _ _ hi]
      exact h.flag_iff i
  initialized i hi := by
    have hold := h.initialized i hi
    have hne : i ≠ c.id := by
      rintro rfl
      rw [hst] at hold
      cases hold
    rw [Lifecycle.busy_runtime_of_ne _ _ _ _ hne]
    exact hold

theorem Initializing.not_mem (h : Initializing g) (hst : (g.runtime c.id).state = .discovered) :
    c.id ∉ ids g.initializedOrder := by
  intro hmem
  have hini := h.initialized c.id hmem
  rw [hst] at hini
  cases hini

theorem Initializing.up (h : Initializing g) (hc : c ∈ g.components)
    (hst : (g.runtime c.id).state = .discovered)
    (hdeps : ∀ d ∈ c.dependencies, (g.runtime d).initialized = true)
    (hini : slot.state = .initialized) (hflag : slot.initialized = true)
    (hstarted : slot.started = (g.runtime c.id).started) :
    Initializing ({ g with initializedOrder := c :: g.initializedOrder }.busy c.id slot calls) := by
  have hslots : ∀ i, i ≠ c.id →
      ({ g with initializedOrder := c :: g.initializedOrder }.busy c.id slot calls).runtime i =
        g.runtime i := fun i hi => Lifecycle.busy_runtime_of_ne _ _ _ _ hi
  have hordered : Ordered g.components (c :: g.initializedOrder) :=
    h.coherent.initialized_order.cons hc (h.not_mem hst) fun d hd =>
      (h.flag_iff d).mp (hdeps d hd)
  have hold : (g.runtime c.id).started ≠ true := by
    intro hs
    have hrun := (h.coherent.slots c.id).started_iff.mp hs
    rw [hst] at hrun
    cases hrun
  have hmem : ∀ i, i ∈ ids (c :: g.initializedOrder) ↔ i = c.id ∨ i ∈ ids g.initializedOrder :=
    fun i => by simp only [ids, List.map_cons, List.mem_cons]
  constructor
  · refine h.coherent.step c.id hslots ?_ hordered h.coherent.started_order
      (fun i _ hi => (hmem i).mpr (Or.inr hi)) (fun _ _ => Iff.rfl) ?_ ?_ h.coherent.accepted
    · rw [Lifecycle.busy_runtime_self]
      refine ⟨by rw [hini]; decide, ?_, fun _ => hflag, fun hd => by rw [hini] at hd; cases hd⟩
      rw [hstarted, hini]
      exact ⟨fun hs => absurd hs hold, fun hr => by cases hr⟩
    · rw [Lifecycle.busy_runtime_self, hini]
      refine ⟨fun hr => (by cases hr), fun hm => ?_⟩
      rw [show ids _ = [] from by
        rw [Lifecycle.busy_startedOrder, h.none_started]; rfl] at hm
      cases hm
    · exact fun _ => (hmem c.id).mpr (Or.inl rfl)
  · exact h.accepted
  · exact h.none_started
  · intro i
    show _ ↔ i ∈ ids (c :: g.initializedOrder)
    rw [hmem]
    by_cases hi : i = c.id
    · rw [hi, Lifecycle.busy_runtime_self]
      exact ⟨fun _ => Or.inl rfl, fun _ => hflag⟩
    · rw [hslots i hi, h.flag_iff i]
      exact ⟨Or.inr, fun hor => hor.resolve_left hi⟩
  · intro i hi
    rcases (hmem i).mp hi with rfl | hi
    · rw [Lifecycle.busy_runtime_self]
      exact hini
    · have hne : i ≠ c.id := by
        rintro rfl
        exact h.not_mem hst hi
      rw [hslots i hne]
      exact h.initialized i hi

/-- The slot of a component the scan has passed leaves the rest of the scan as it is. -/
theorem Scanning.step {g' : Lifecycle} {rest : List ComponentDesc} {round round' : Round}
    (h : Scanning g (c :: rest) round) (hcomps : g'.components = g.components)
    (hslots : ∀ i, i ≠ c.id → g'.runtime i = g.runtime i)
    (hflag : (g'.runtime c.id).initialized = (g.runtime c.id).initialized)
    (hcand : ∀ e, round'.candidate = some e → round.candidate = some e) :
    Scanning g' rest round' where
  suffix := by
    obtain ⟨front, hfront⟩ := h.suffix
    exact ⟨front ++ [c], by rw [hcomps, hfront, List.append_assoc]; rfl⟩
  candidate e he := by
    obtain ⟨hmem, hrest, hst, hdeps⟩ := h.candidate e (hcand e he)
    have hne : e.id ≠ c.id := by
      intro heq
      apply hrest
      simp only [ids, List.map_cons, List.mem_cons]
      exact Or.inl heq
    refine ⟨by rwa [hcomps], fun hin => hrest (List.mem_cons_of_mem _ hin), ?_, ?_⟩
    · rw [hslots e.id hne]; exact hst
    · intro d hd
      by_cases hid : d = c.id
      · rw [hid, hflag, ← hid]; exact hdeps d hd
      · rw [hslots d hid]; exact hdeps d hd

/-- The next component of the start pass. -/
theorem Starting.head {rest : List ComponentDesc} (h : Starting g (c :: rest)) :
    c ∈ g.initializedOrder := by
  obtain ⟨front, horder, -⟩ := h.order
  rw [← List.mem_reverse, horder]
  exact List.mem_append_right _ (List.mem_cons_self ..)

/-- Its dependencies have had their turn. -/
theorem Starting.dependencies {rest : List ComponentDesc} (h : Starting g (c :: rest)) :
    ∀ d ∈ c.dependencies, (g.runtime d).state = .running ∨ (g.runtime d).state = .failed ∨
      (g.runtime d).state = .skipped := by
  obtain ⟨front, horder, hfront⟩ := h.order
  -- in the stack, what lies below `c` is what came before it in the order
  have hstack : g.initializedOrder = rest.reverse ++ c :: front.reverse := by
    rw [← List.reverse_reverse g.initializedOrder, horder]
    simp
  intro d hd
  have hbelow := h.coherent.initialized_order.closed _ _ _ hstack d hd
  obtain ⟨e, he, rfl⟩ := List.mem_map.mp hbelow
  exact hfront e (List.mem_reverse.mp he)

theorem Starting.head_not_mem {rest : List ComponentDesc} (h : Starting g (c :: rest)) :
    c.id ∉ ids rest := by
  obtain ⟨front, horder, -⟩ := h.order
  have hnd : (ids g.initializedOrder.reverse).Nodup := by
    rw [ids, List.map_reverse]
    exact List.nodup_reverse.mpr h.coherent.initialized_order.nodup
  rw [horder, ids, List.map_append] at hnd
  exact (List.nodup_cons.mp (List.nodup_append.mp hnd).2.1).1

/-- The start pass after a component had its turn. -/
theorem Starting.step {g' : Lifecycle} {rest : List ComponentDesc} (h : Starting g (c :: rest))
    (hcoherent : Coherent g') (hcomps : g'.components = g.components)
    (horder : g'.initializedOrder = g.initializedOrder)
    (hslots : ∀ i, i ≠ c.id → g'.runtime i = g.runtime i)
    (hst : (g'.runtime c.id).state = .running ∨ (g'.runtime c.id).state = .failed ∨
      (g'.runtime c.id).state = .skipped) : Starting g' rest where
  coherent := hcoherent
  accepted := by rw [hcomps]; exact h.accepted
  order := by
    obtain ⟨front, hsplit, hfront⟩ := h.order
    refine ⟨front ++ [c], by rw [horder, hsplit, List.append_assoc]; rfl, fun e he => ?_⟩
    by_cases hid : e.id = c.id
    · rw [hid]; exact hst
    · rw [hslots e.id hid]
      rcases List.mem_append.mp he with he | he
      · exact hfront e he
      · exact absurd (congrArg ComponentDesc.id (List.mem_singleton.mp he)) hid
  waiting e he := by
    have hid : e.id ≠ c.id := by
      intro heq
      exact h.head_not_mem (heq ▸ mem_ids_of_mem he)
    rw [hslots e.id hid]
    exact h.waiting e (List.mem_cons_of_mem _ he)

/-- A component that comes up goes on top of the started stack. -/
theorem Coherent.up (h : Coherent g) (hacc : Accepted g.components) (hc : c ∈ g.components)
    (hst : (g.runtime c.id).state ≠ .running)
    (hdeps : ∀ d ∈ c.dependencies, (g.runtime d).state = .running)
    (hrun : slot.state = .running) (hstarted : slot.started = true) :
    Coherent ({ g with startedOrder := c :: g.startedOrder }.busy c.id slot calls) := by
  have hslots : ∀ i, i ≠ c.id →
      ({ g with startedOrder := c :: g.startedOrder }.busy c.id slot calls).runtime i =
        g.runtime i := fun i hi => Lifecycle.busy_runtime_of_ne _ _ _ _ hi
  have hordered : Ordered g.components (c :: g.startedOrder) :=
    h.started_order.cons hc (fun hm => hst ((h.running_iff c.id).mpr hm)) fun d hd =>
      (h.running_iff d).mp (hdeps d hd)
  have hmem : ∀ i, i ∈ ids (c :: g.startedOrder) ↔ i = c.id ∨ i ∈ ids g.startedOrder :=
    fun i => by simp only [ids, List.map_cons, List.mem_cons]
  refine h.step c.id hslots ?_ h.initialized_order hordered (fun _ _ => id) ?_ ?_ ?_
    fun _ => hacc
  · rw [Lifecycle.busy_runtime_self]
    refine ⟨by rw [hrun]; decide, ⟨fun _ => hrun, fun _ => hstarted⟩, ?_, ?_⟩
    · intro hini; rw [hrun] at hini; cases hini
    · intro hdisc; rw [hrun] at hdisc; cases hdisc
  · intro i hi
    show _ ↔ i ∈ ids (c :: g.startedOrder)
    rw [hmem]
    exact ⟨Or.inr, fun hor => hor.resolve_left hi⟩
  · rw [Lifecycle.busy_runtime_self]
    exact ⟨fun _ => (hmem c.id).mpr (Or.inl rfl), fun _ => hrun⟩
  · rw [Lifecycle.busy_runtime_self]
    intro hini
    rw [hrun] at hini
    cases hini

/-- The component on top of the started stack goes down when it is popped. -/
theorem Coherent.stopped {below : List ComponentDesc} (h : Coherent g)
    (htop : g.startedOrder = c :: below)
    (hdown : slot.state = .failed ∨ slot.state = .stopped) (hstarted : slot.started = false) :
    Coherent ({ g with startedOrder := below }.busy c.id slot calls) := by
  have hordered := h.started_order
  rw [htop] at hordered
  have hacc : Accepted g.components := h.accepted (by rw [htop]; exact List.cons_ne_nil _ _)
  refine h.step c.id (fun i hi => Lifecycle.busy_runtime_of_ne _ _ _ _ hi) ?_
    h.initialized_order hordered.tail (fun _ _ => id) ?_ ?_ ?_ fun _ => hacc
  · rw [Lifecycle.busy_runtime_self]
    constructor
    · rcases hdown with h | h <;> rw [h] <;> decide
    · rw [hstarted]
      refine ⟨fun hs => (by cases hs), fun hrun => ?_⟩
      rcases hdown with h | h <;> rw [h] at hrun <;> cases hrun
    · intro hini
      rcases hdown with h | h <;> rw [h] at hini <;> cases hini
    · intro hdisc
      rcases hdown with h | h <;> rw [h] at hdisc <;> cases hdisc
  · intro i hi
    rw [htop]
    simp only [ids, List.map_cons, List.mem_cons]
    exact ⟨fun hor => hor.resolve_left hi, Or.inr⟩
  · rw [Lifecycle.busy_runtime_self]
    refine ⟨fun hrun => ?_, fun hm => absurd hm hordered.head_not_mem⟩
    rcases hdown with h | h <;> rw [h] at hrun <;> cases hrun
  · rw [Lifecycle.busy_runtime_self]
    intro hini
    rcases hdown with h | h <;> rw [h] at hini <;> cases hini

/-- A component that is not INITIALIZED may leave the initialization stack. -/
theorem Coherent.popInitialized {below : List ComponentDesc} (h : Coherent g)
    (htop : g.initializedOrder = c :: below) (hst : (g.runtime c.id).state ≠ .initialized) :
    Coherent { g with initializedOrder := below } := by
  have hordered := h.initialized_order
  rw [htop] at hordered
  refine h.step c.id (fun _ _ => rfl) (h.slots c.id) hordered.tail h.started_order ?_
    (fun _ _ => Iff.rfl) (h.running_iff c.id) (fun hini => absurd hini hst) h.accepted
  intro i hi hm
  rw [htop] at hm
  simp only [ids, List.map_cons, List.mem_cons] at hm
  exact hm.resolve_left hi

end Places

/-! ## The contract is kept -/

section Enter

variable {g : Lifecycle} {t : Steps}

/-- A table just collected, or still all zero. -/
theorem coherent_fresh (h : ∀ i, g.runtime i = {}) (hinit : g.initializedOrder = [])
    (hstarted : g.startedOrder = []) : Coherent g where
  slots i := by
    rw [h i]
    exact ⟨by decide, by decide, fun hs => (by cases hs), fun _ => rfl⟩
  initialized_order := by rw [hinit]; exact Ordered.nil _
  started_order := by rw [hstarted]; exact Ordered.nil _
  running_iff i := by
    rw [h i, hstarted]
    exact ⟨fun hs => (by cases hs), fun hm => (List.not_mem_nil hm).elim⟩
  initialized_mem i hs := by
    rw [h i] at hs
    cases hs
  accepted hne := absurd hstarted hne

theorem good_fresh (h : ∀ i, g.runtime i = {}) : Good g where
  dependencies c _ hup := by
    rw [h c.id] at hup
    exact absurd hup (by decide)
  errors i := by
    rw [h i]
    exact ErrorCoherent.of_ok rfl (by decide) (by decide)

theorem wp_haltSteps (ret : SysErr) (hg : Good g) (h : Coherent g) :
    lifecycleCode.wp lifecycleContract (haltSteps ret) g := ⟨hg, h⟩

/-- A loop body that returned: on with the loop, or into the rollback. -/
theorem wp_after {ret : SysErr} {p : Place} (hg : Good g) (hc : Coherent g) (hp : PlaceInv p g) :
    lifecycleCode.wp lifecycleContract (if ret ≠ .ok then haltSteps ret else .done p) g := by
  split
  · exact wp_haltSteps ret hg hc
  · exact ⟨hg, hp⟩

theorem wp_collect (sec : LinkSection) (hg : Good g) (hc : Coherent g) :
    lifecycleCode.wp lifecycleContract (.write (.collect sec) (.done
      (if (collectComponents sec g).1 ≠ .ok then .idle (.rejected (collectComponents sec g).1)
        else .phaseLoop (List.range phaseCount)))) g := by
  refine ⟨hg, contract_write_other rfl, ?_⟩
  show Good (collectComponents sec g).2 ∧ PlaceInv _ (collectComponents sec g).2
  have hrejected : ∀ ret, ¬ (Returned.rejected ret).Finished := by
    rintro ret ⟨r, h | h⟩ <;> cases h
  unfold collectComponents
  split
  · rw [if_pos (by simp)]
    exact ⟨hg, hc, fun h => absurd h (hrejected _)⟩
  split
  · rw [if_pos (by simp)]
    exact ⟨hg, hc, fun h => absurd h (hrejected _)⟩
  -- the table, the stacks and the slots are reset
  dsimp only
  refine ⟨good_fresh fun _ => rfl, ?_⟩
  have hcoherent := coherent_fresh (g := { g with
    components := sec.entries.filter fun desc => desc.hasInit
    runtime := fun _ => {}
    initializedOrder := []
    startedOrder := [] })
    (fun _ => rfl) rfl rfl
  split
  · exact ⟨hcoherent, fun h => absurd h (hrejected _)⟩
  · rename_i hret
    refine ⟨hcoherent, accepted_of_validateComponents (not_not.mp hret), rfl, fun i => ?_, ?_⟩
    · exact ⟨fun hs => (by cases hs), fun hm => (List.not_mem_nil hm).elim⟩
    · exact fun i hm => (List.not_mem_nil hm).elim

theorem wp_scanComponent {phase : Nat} {phases : List Nat} {c : ComponentDesc}
    {rest : List ComponentDesc} {round : Round} (hg : Good g) (hini : Initializing g)
    (hscan : Scanning g (c :: rest) round) :
    lifecycleCode.wp lifecycleContract (scanComponentSteps phase c round g haltSteps fun round =>
      .done (.scan phase phases rest round)) g := by
  have hkeep : ∀ round', round'.candidate = round.candidate → Scanning g rest round' :=
    fun round' hr => hscan.step rfl (fun _ _ => rfl) rfl fun e he => by rw [← hr]; exact he
  unfold scanComponentSteps
  split
  · exact ⟨hg, hini, hkeep round rfl⟩
  rename_i hstate
  obtain ⟨hst, -⟩ : (g.runtime c.id).state = .discovered ∧ c.phase = phase := by
    simpa [not_or] using hstate
  cases hdeps : checkDependencies g c false with
  | waiting => exact ⟨hg, hini, hkeep _ rfl⟩
  | failed =>
      apply wp_handleDependencyFailureSteps hg (by rw [hst]; decide)
      intro ret slot hskip hflag hstarted hgood
      have hdown : Initializing (g.busy c.id slot []) :=
        hini.down hst (Or.inr hskip) hflag hstarted
      split
      · exact wp_haltSteps ret hgood hdown.coherent
      · refine ⟨hgood, hdown, hscan.step rfl (fun i hi => Lifecycle.busy_runtime_of_ne _ _ _ _ hi)
          ?_ fun e he => he⟩
        rw [Lifecycle.busy_runtime_self]
        exact hflag
  | ready =>
      dsimp only
      split
      · refine ⟨hg, hini, ?_⟩
        obtain ⟨front, hfront⟩ := hscan.suffix
        refine ⟨⟨front ++ [c], by rw [hfront, List.append_assoc]; rfl⟩, ?_⟩
        -- the new candidate is the slot the scan has just passed
        rintro e heq
        obtain rfl : c = e := Option.some.inj heq
        have hnd := hini.accepted.nodup
        rw [hfront, ids, List.map_append] at hnd
        refine ⟨?_, (List.nodup_cons.mp (List.nodup_append.mp hnd).2.1).1, hst,
          checkDependencyList_initialized hdeps⟩
        rw [hfront]
        exact List.mem_append_right _ (List.mem_cons_self ..)
      · exact ⟨hg, hini, hkeep _ rfl⟩

theorem wp_initializeCandidate {phase : Nat} {phases : List Nat} {c : ComponentDesc}
    {round : Round} (hg : Good g) (hini : Initializing g) (hscan : Scanning g [] round)
    (hcand : round.candidate = some c) :
    lifecycleCode.wp lifecycleContract (initializeComponentSteps c fun ret =>
      if ret ≠ .ok then haltSteps ret else .done (.round phase phases)) g := by
  obtain ⟨hc, -, hst, hdeps⟩ := hscan.candidate c hcand
  apply wp_initializeComponentSteps hg hst hdeps
  · intro ret slot calls hfailed hflag hstarted hgood
    have hdown : Initializing (g.busy c.id slot calls) :=
      hini.down hst (Or.inl hfailed) hflag hstarted
    exact wp_after hgood hdown.coherent hdown
  · intro slot calls hslot hflag hstarted hgood
    have hup : Initializing
        ({ g with initializedOrder := c :: g.initializedOrder }.busy c.id slot calls) :=
      hini.up hc hst hdeps hslot hflag hstarted
    exact wp_after ⟨hgood.dependencies, hgood.errors⟩ hup.coherent hup

theorem wp_startNext {c : ComponentDesc} {rest : List ComponentDesc} (hg : Good g)
    (h : Starting g (c :: rest)) :
    lifecycleCode.wp lifecycleContract (startComponentSteps c fun ret =>
      if ret ≠ .ok then haltSteps ret else .done (.startLoop rest)) g := by
  have hst : (g.runtime c.id).state = .initialized := h.waiting c (List.mem_cons_self ..)
  have hne : (g.runtime c.id).state ≠ .running := by rw [hst]; decide
  have hc : c ∈ g.components := h.coherent.initialized_order.mem c h.head
  apply wp_startComponentSteps hg
    (fun e he hid => eq_of_id_eq h.accepted.nodup he hc hid) hst checkDependencyList_running
  · intro ret slot calls hdown hstarted hgood
    have hcoherent : Coherent (g.busy c.id slot calls) := by
      refine h.coherent.down hne ?_ hstarted
      rcases hdown with h | h
      · exact Or.inl h
      · exact Or.inr (Or.inl h)
    refine wp_after hgood hcoherent (h.step hcoherent rfl rfl
      (fun i hi => Lifecycle.busy_runtime_of_ne _ _ _ _ hi) ?_)
    rw [Lifecycle.busy_runtime_self]
    exact Or.inr hdown
  · intro slot calls hdeps hrun hstarted hgood
    have hcoherent : Coherent
        ({ g with startedOrder := c :: g.startedOrder }.busy c.id slot calls) :=
      h.coherent.up h.accepted hc hne hdeps hrun hstarted
    refine wp_after ⟨hgood.dependencies, hgood.errors⟩ hcoherent (h.step hcoherent rfl rfl
      (fun i hi => Lifecycle.busy_runtime_of_ne _ _ _ _ hi) ?_)
    rw [Lifecycle.busy_runtime_self]
    exact Or.inl hrun

theorem wp_stopNext {c : ComponentDesc} {below : List ComponentDesc} {caller : Caller}
    {firstError : SysErr} (hg : Good g) (h : Coherent g) (htop : g.startedOrder = c :: below) :
    lifecycleCode.wp lifecycleContract (.write .popStarted <| stopComponentSteps c fun ret =>
      .done (.stopLoop caller (if ret ≠ .ok ∧ firstError = .ok then ret else firstError))) g := by
  have hpop : lifecycleCode.write .popStarted g = { g with startedOrder := below } := by
    show { g with startedOrder := g.startedOrder.tail } = _
    rw [htop]
    rfl
  have hordered := h.started_order
  rw [htop] at hordered
  have hacc : Accepted g.components := h.accepted (by rw [htop]; exact List.cons_ne_nil _ _)
  have hc : c ∈ g.components := hordered.mem c (List.mem_cons_self ..)
  have hrun : (g.runtime c.id).state = .running := by
    rw [h.running_iff c.id, htop]
    exact mem_ids_of_mem (List.mem_cons_self ..)
  -- whoever is up is on the stack, and nothing there depends on its top
  have hunused : Unused g c.id := by
    intro e he hid hup
    obtain ⟨-, hs₁, hs₂⟩ := (h.slots e.id).settled
    have hmem := (h.running_iff e.id).mp ((hup.resolve_left hs₁).resolve_right hs₂)
    obtain ⟨e', he', heq⟩ := List.mem_map.mp hmem
    obtain rfl : e' = e := eq_of_id_eq hacc.nodup (h.started_order.mem e' he') he heq
    rw [htop] at he'
    exact hordered.not_dependency he'
  have hsupported : Supported g c := by
    intro d hd
    refine ⟨hg.dependencies c hc (by rw [hrun]; decide) d hd, ?_⟩
    rintro rfl
    exact hordered.not_dependency (List.mem_cons_self ..) hd
  refine ⟨hg, contract_write_other rfl, ?_⟩
  rw [hpop]
  refine wp_stopComponentSteps (g := { g with startedOrder := below })
    ⟨hg.dependencies, hg.errors⟩ (fun e he hid => eq_of_id_eq hacc.nodup he hc hid)
    hunused hsupported hrun ?_
  intro ret slot calls hdown hstarted hgood
  exact ⟨hgood, h.stopped htop hdown hstarted⟩

theorem wp_deinitNext {c : ComponentDesc} {below : List ComponentDesc} {caller : Caller}
    {ret : SysErr} (hg : Good g) (h : Coherent g) (hnone : g.startedOrder = [])
    (htop : g.initializedOrder = c :: below) :
    lifecycleCode.wp lifecycleContract (.write .popInitialized <|
      deinitializeComponentSteps c (.done (.deinitLoop caller ret))) g := by
  have hpop : lifecycleCode.write .popInitialized g = { g with initializedOrder := below } := by
    show { g with initializedOrder := g.initializedOrder.tail } = _
    rw [htop]
    rfl
  have hslot := h.slots c.id
  have hne : (g.runtime c.id).state ≠ .running := by
    intro hrun
    have hm := (h.running_iff c.id).mp hrun
    rw [hnone] at hm
    exact List.not_mem_nil hm
  have hg' : Good { g with initializedOrder := below } := ⟨hg.dependencies, hg.errors⟩
  refine ⟨hg, contract_write_other rfl, ?_⟩
  rw [hpop]
  apply wp_deinitializeComponentSteps hg'
  · intro hflag hf hs
    obtain ⟨h₁, h₂, h₃⟩ := hslot.settled
    have hd : (g.runtime c.id).state ≠ .discovered := by
      intro hdisc
      rw [hslot.discovered_flag hdisc] at hflag
      cases hflag
    show (g.runtime c.id).state = .initialized ∨ (g.runtime c.id).state = .stopped
    cases hcase : (g.runtime c.id).state <;> simp_all
  · intro hflag
    refine ⟨hg', h.popInitialized htop fun hini => ?_, hnone⟩
    have hset := hslot.initialized_flag hini
    rw [show (g.runtime c.id).initialized = false from hflag] at hset
    cases hset
  · intro slot calls hdown hstarted hgood
    have hcoherent : Coherent (g.busy c.id slot calls) := h.down hne ?_ hstarted
    · refine ⟨hgood, Coherent.popInitialized (g := g.busy c.id slot calls) hcoherent htop ?_, hnone⟩
      rw [Lifecycle.busy_runtime_self]
      rcases hdown with h | h | h <;> rw [h] <;> decide
    · exact hdown

/-- Outside the entry points the only input is to go on. -/
theorem enter_input {p : Place} {i : Input} (h : enter p i g = some t) :
    (∃ last, p = .idle last) ∨ i = .go := by
  unfold enter at h
  split at h
  all_goals first
    | exact Or.inl ⟨_, rfl⟩
    | exact Or.inr rfl
    | cases h

theorem wp_idle {last : Returned} {i : Input} (hg : Good g) (hp : PlaceInv (.idle last) g)
    (h : enter (.idle last) i g = some t) : lifecycleCode.wp lifecycleContract t g := by
  cases i with
  | startAll sec =>
      obtain rfl := Option.some.inj h
      exact wp_collect sec hg hp.1
  | stopAll =>
      obtain rfl := Option.some.inj h
      exact ⟨hg, hp.1⟩
  | go => cases h

theorem wp_scan {phase : Nat} {phases : List Nat} {rest : List ComponentDesc} {round : Round}
    (hg : Good g) (hini : Initializing g) (hscan : Scanning g rest round)
    (h : enter (.scan phase phases rest round) .go g = some t) :
    lifecycleCode.wp lifecycleContract t g := by
  cases rest with
  | cons c rest =>
      obtain rfl := Option.some.inj h
      exact wp_scanComponent hg hini hscan
  | nil =>
      simp only [enter] at h
      split at h
      · obtain rfl := Option.some.inj h
        exact ⟨hg, hini⟩
      split at h
      · split at h
        · obtain rfl := Option.some.inj h
          exact ⟨hg, hini⟩
        · obtain rfl := Option.some.inj h
          exact wp_haltSteps _ hg hini.coherent
      · rename_i hcand
        obtain rfl := Option.some.inj h
        exact wp_initializeCandidate hg hini hscan hcand

/-- The component framework keeps its contract. -/
theorem lifecycle_meets : lifecycleCode.Meets lifecycleContract where
  start := by
    rintro p g ⟨rfl, rfl⟩
    refine ⟨good_fresh fun _ => rfl, coherent_fresh (fun _ => rfl) rfl rfl, ?_⟩
    rintro ⟨r, h | h⟩ <;> cases h
  enter := by
    intro p i g t hg hp h
    rcases enter_input h with ⟨last, rfl⟩ | rfl
    · exact wp_idle hg hp h
    cases p with
    | idle last => cases h
    | phaseLoop phases =>
        cases phases with
        | nil =>
            obtain rfl := Option.some.inj h
            refine ⟨hg, hp.coherent, hp.accepted,
              ⟨[], rfl, fun c hc => (List.not_mem_nil hc).elim⟩, fun c hc => ?_⟩
            exact hp.initialized c.id (mem_ids_of_mem (List.mem_reverse.mp hc))
        | cons phase phases =>
            obtain rfl := Option.some.inj h
            exact ⟨hg, hp⟩
    | round phase phases =>
        obtain rfl := Option.some.inj h
        exact ⟨hg, hp, ⟨[], rfl⟩, fun c hc => (by cases hc)⟩
    | scan phase phases rest round => exact wp_scan hg hp.1 hp.2 h
    | startLoop rest =>
        cases rest with
        | nil =>
            obtain rfl := Option.some.inj h
            refine ⟨hg, hp.coherent, ?_⟩
            rintro ⟨r, h | h⟩ <;> cases h
        | cons c rest =>
            obtain rfl := Option.some.inj h
            exact wp_startNext hg hp
    | stopLoop caller firstError =>
        simp only [lifecycleCode, enter] at h
        split at h
        · rename_i htop
          obtain rfl := Option.some.inj h
          exact ⟨hg, hp, htop⟩
        · rename_i htop
          obtain rfl := Option.some.inj h
          exact wp_stopNext hg hp htop
    | deinitLoop caller ret =>
        simp only [lifecycleCode, enter] at h
        split at h
        · rename_i htop
          obtain rfl := Option.some.inj h
          exact ⟨hg, hp.1, fun _ => ⟨hp.2, htop⟩⟩
        · rename_i htop
          obtain rfl := Option.some.inj h
          exact wp_deinitNext hg hp.1 hp.2 htop

end Enter

end Component
end AppCore
