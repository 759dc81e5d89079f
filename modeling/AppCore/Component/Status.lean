/-
  AppCore.Component.Status

  What `sys_core_get_status` can show at any point of any run of `start_all` and
  `stop_all`, whatever the callbacks return: who is up has its dependencies
  running, states change along the life cycle only, and the error belongs to
  the state.
-/

import AppCore.Component.CoherentSteps

namespace AppCore
namespace Component

section Reached

variable {t : Steps} {g : Lifecycle}

/-- At every reachable point the rest of the step keeps the contract. -/
theorem wp_of_reachable (h : lifecycleCode.machine.Reachable (t, g)) :
    lifecycleCode.wp lifecycleContract t g :=
  lifecycle_meets.reachable h

theorem PlaceInv.coherent {p : Place} (h : PlaceInv p g) : Coherent g := by
  cases p with
  | idle last => exact h.1
  | phaseLoop phases => exact Initializing.coherent h
  | round phase phases => exact Initializing.coherent h
  | scan phase phases rest round => exact h.1.coherent
  | startLoop rest => exact Starting.coherent h
  | stopLoop caller firstError => exact h
  | deinitLoop caller ret => exact h.1

/-- A write leaves a state as it is or changes it along the life cycle. -/
theorem Op.apply_state {o : Op} (hcollect : ∀ sec, o ≠ .collect sec)
    (hwrite : lifecycleContract.write o g) (i : UInt32) :
    ((o.apply g).runtime i).state = (g.runtime i).state ∨
      ((o.apply g).runtime i).state ∈ transitions (g.runtime i).state := by
  have hmodify : ∀ (id : UInt32) (f : ComponentRuntime → ComponentRuntime),
      (f (g.runtime id)).state = (g.runtime id).state ∨
        (f (g.runtime id)).state ∈ transitions (g.runtime id).state →
      ((g.modify id f).runtime i).state = (g.runtime i).state ∨
        ((g.modify id f).runtime i).state ∈ transitions (g.runtime i).state := by
    intro id f hf
    by_cases hi : i = id
    · subst hi
      rw [show (g.modify i f).runtime i = f (g.runtime i) from Function.update_self ..]
      exact hf
    · rw [show (g.modify id f).runtime i = g.runtime i from Function.update_of_ne hi ..]
      exact Or.inl rfl
  cases o with
  | collect sec => exact absurd rfl (hcollect sec)
  | update id state error =>
      exact hmodify id (fun c => { c with state := state, lastError := error })
        (Or.inr (hwrite id state rfl))
  | keep id state =>
      exact hmodify id (fun c => { c with state := state, lastError := (g.runtime id).lastError })
        (Or.inr (hwrite id state rfl))
  | setInitialized id b => exact hmodify id (fun c => { c with initialized := b }) (Or.inl rfl)
  | setStarted id b => exact hmodify id (fun c => { c with started := b }) (Or.inl rfl)
  | _ => exact Or.inl rfl

/-- So does a step of the machine. -/
theorem next_state {e : Code.Event SysErr Input} {t' : Steps} {g' : Lifecycle}
    (hwp : lifecycleCode.wp lifecycleContract t g)
    (hstep : lifecycleCode.next (t, g) e = some (t', g'))
    (hcollect : ∀ sec u, t ≠ .write (.collect sec) u) (i : UInt32) :
    (g'.runtime i).state = (g.runtime i).state ∨
      (g'.runtime i).state ∈ transitions (g.runtime i).state := by
  -- only a write touches the table
  cases t with
  | write o u =>
      cases e with
      | step =>
          obtain ⟨-, rfl⟩ := Prod.mk.inj (Option.some.inj hstep)
          refine Op.apply_state (fun sec => ?_) hwp.write i
          rintro rfl
          exact hcollect sec u rfl
      | _ => cases hstep
  | done p =>
      cases e with
      | input inp =>
          obtain ⟨u, -, heq⟩ := Option.map_eq_some_iff.mp hstep
          obtain ⟨-, rfl⟩ := Prod.mk.inj heq
          exact Or.inl rfl
      | _ => cases hstep
  | call r k =>
      cases e with
      | answer a =>
          obtain ⟨-, rfl⟩ := Prod.mk.inj (Option.some.inj hstep)
          exact Or.inl rfl
      | _ => cases hstep
  | test b yes no =>
      cases e with
      | step =>
          obtain ⟨-, rfl⟩ := Prod.mk.inj (Option.some.inj hstep)
          exact Or.inl rfl
      | _ => cases hstep

theorem Coherent.released (h : Coherent g) (hstarted : g.startedOrder = [])
    (hinit : g.initializedOrder = []) (i : UInt32) :
    (g.runtime i).state ∉ [.initializing, .initialized, .starting, .running, .stopping] := by
  obtain ⟨h₁, h₂, h₃⟩ := (h.slots i).settled
  have hrun : (g.runtime i).state ≠ .running := by
    intro hst
    have hm := (h.running_iff i).mp hst
    rw [hstarted] at hm
    exact List.not_mem_nil hm
  have hini : (g.runtime i).state ≠ .initialized := by
    intro hst
    have hm := h.initialized_mem i hst
    rw [hinit] at hm
    exact List.not_mem_nil hm
  intro hmem
  simp only [List.mem_cons, List.not_mem_nil, or_false] at hmem
  rcases hmem with h | h | h | h | h
  · exact h₁ h
  · exact hini h
  · exact h₂ h
  · exact hrun h
  · exact h₃ h

/-! ## Running components have running dependencies -/

/-- At every point of every run of `start_all` and `stop_all`: an init is called with all
    dependencies initialized, a start with all of them RUNNING, whoever is STARTING,
    RUNNING or STOPPING has all of them RUNNING, and where `start_component` is called its
    dependency check does not wait. -/
theorem dependencies_running (h : lifecycleCode.machine.Reachable (t, g)) :
    (∀ c k, t = .call (.init c) k → ∀ d ∈ c.dependencies, (g.runtime d).initialized = true) ∧
    (∀ c k, t = .call (.start c) k → ∀ d ∈ c.dependencies, (g.runtime d).state = .running) ∧
    (∀ c ∈ g.components, Active (g.runtime c.id).state →
      ∀ d ∈ c.dependencies, (g.runtime d).state = .running) ∧
    (∀ c rest, t = .done (.startLoop (c :: rest)) → checkDependencies g c true ≠ .waiting) := by
  have hwp := wp_of_reachable h
  refine ⟨?_, ?_, hwp.good.dependencies, ?_⟩
  · rintro c k rfl
    exact hwp.call
  · rintro c k rfl
    exact hwp.call
  · rintro c rest rfl
    have hstarting : Starting g (c :: rest) := hwp.place
    exact checkDependencyList_ne_waiting hstarting.dependencies

end Reached

/-- The second of two components, which depends on the first, is RUNNING after
    `start_all`, and so is the first. -/
theorem dependencies_running_two :
    let sec := LinkSection.ofList [.core 1 policyRequired [], .core 2 policyRequired [1]]
    ∃ g, sysComponentStartAll (.failing [] []) sec .zero = some (.ok, g) ∧
      (g.runtime 2).state = .running ∧ (g.runtime 1).state = .running := by
  intro sec
  obtain ⟨⟨ret, g⟩, hrun⟩ : ∃ x, sysComponentStartAll (.failing [] []) sec .zero = some x :=
    Option.isSome_iff_exists.mp (by decide)
  have hret : ret = .ok ∧ (g.runtime 2).state = .running ∧
      g.components = [.core 1 policyRequired [], .core 2 policyRequired [1]] := by
    have hget : (ret, g) = (sysComponentStartAll (.failing [] []) sec .zero).get (by decide) := by
      simp only [hrun, Option.get_some]
    obtain ⟨rfl, rfl⟩ := Prod.mk.inj hget
    decide
  obtain ⟨rfl, hup, hcomps⟩ := hret
  have hreach : lifecycleCode.machine.Reachable (.done (.idle (startReturned sec .ok .zero)), g) :=
    (sysComponentStartAll_leads .nothing hrun).reachable (Code.reachable_start ⟨rfl, rfl⟩)
  refine ⟨g, hrun, hup, ?_⟩
  refine (dependencies_running hreach).2.2.1 (.core 2 policyRequired [1]) ?_ ?_ 1 ?_
  · rw [hcomps]
    decide
  · exact Or.inr (Or.inl hup)
  · decide

/-! ## The status of a component -/

section Reached

variable {t : Steps} {g : Lifecycle}

/-- At every point of every run of `start_all` and `stop_all`: each `update_state` goes along
    the life cycle, and until the next `start_all` resets the table no state changes
    otherwise; the error is that of the state; between lifecycle steps `started` holds
    exactly in RUNNING and the started stack lists these components once each; and after
    `start_all` failed past validation, or `stop_all` returned, nobody is left on the way
    up, RUNNING or STOPPING. -/
theorem status_coherent (h : lifecycleCode.machine.Reachable (t, g)) :
    (∀ o u id state, t = .write o u → o.writes = some (id, state) →
      state ∈ transitions (g.runtime id).state) ∧
    (∀ e t' g', lifecycleCode.next (t, g) e = some (t', g') →
      (∀ sec u, t ≠ .write (.collect sec) u) →
      ∀ i, (g'.runtime i).state = (g.runtime i).state ∨
        (g'.runtime i).state ∈ transitions (g.runtime i).state) ∧
    (∀ i, ErrorCoherent g.calls i (g.runtime i)) ∧
    (∀ p, t = .done p →
      (∀ i, (g.runtime i).started = true ↔ (g.runtime i).state = .running) ∧
      (ids g.startedOrder).Nodup ∧
      ∀ i, i ∈ ids g.startedOrder ↔ (g.runtime i).started = true) ∧
    (∀ ret, t = .done (.idle (.rolledBack ret)) ∨ t = .done (.idle (.stopped ret)) →
      ∀ i, (g.runtime i).state ∉
        [.initializing, .initialized, .starting, .running, .stopping]) := by
  have hwp := wp_of_reachable h
  refine ⟨?_, ?_, hwp.good.errors, ?_, ?_⟩
  · rintro o u id state rfl hwrites
    exact hwp.write id state hwrites
  · exact fun e t' g' hstep hcollect i => next_state hwp hstep hcollect i
  · rintro p rfl
    have hcoherent := PlaceInv.coherent hwp.place
    refine ⟨fun i => (hcoherent.slots i).started_iff, hcoherent.started_order.nodup, fun i => ?_⟩
    rw [(hcoherent.slots i).started_iff, hcoherent.running_iff]
  · intro ret hret
    obtain ⟨last, rfl, hfinished⟩ : ∃ last, t = .done (.idle last) ∧ last.Finished := by
      rcases hret with rfl | rfl
      · exact ⟨_, rfl, ret, Or.inl rfl⟩
      · exact ⟨_, rfl, ret, Or.inr rfl⟩
    have hplace : PlaceInv (.idle last) g := hwp.place
    obtain ⟨hstarted, hinit⟩ := hplace.2 hfinished
    exact hplace.1.released hstarted hinit

end Reached

/-- The start of the second of two components fails: after the rollback the first is
    STOPPED, the second still shows its error. -/
theorem status_coherent_rollback :
    let sec := LinkSection.ofList [.core 1 policyRequired [], .core 2 policyRequired [1]]
    ∃ g, sysComponentStartAll (.failing [] [2]) sec .zero = some (.generic, g) ∧
      (g.runtime 1).state = .stopped ∧ (g.runtime 2).state = .failed ∧
      lastReturn g.calls 2 = some .generic ∧
      ∀ i, (g.runtime i).state ∉ [.initializing, .initialized, .starting, .running, .stopping] := by
  intro sec
  obtain ⟨⟨ret, g⟩, hrun⟩ : ∃ x, sysComponentStartAll (.failing [] [2]) sec .zero = some x :=
    Option.isSome_iff_exists.mp (by decide)
  have hret : ret = .generic ∧ (g.runtime 1).state = .stopped ∧ (g.runtime 2).state = .failed ∧
      (g.runtime 2).lastError = .generic := by
    have hget : (ret, g) = (sysComponentStartAll (.failing [] [2]) sec .zero).get (by decide) := by
      simp only [hrun, Option.get_some]
    obtain ⟨rfl, rfl⟩ := Prod.mk.inj hget
    decide
  obtain ⟨rfl, hstopped, hfailed, herr⟩ := hret
  have hreach : lifecycleCode.machine.Reachable
      (.done (.idle (startReturned sec .generic .zero)), g) :=
    (sysComponentStartAll_leads .nothing hrun).reachable (Code.reachable_start ⟨rfl, rfl⟩)
  rw [show startReturned sec .generic .zero = .rolledBack .generic by decide] at hreach
  have hstatus := status_coherent hreach
  refine ⟨g, hrun, hstopped, hfailed, ?_, hstatus.2.2.2.2 _ (Or.inl rfl)⟩
  rw [(hstatus.2.2.1 2).failed hfailed, herr]

end Component
end AppCore
