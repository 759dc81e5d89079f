/-
  AppCore.Component.Outcome

  What `sys_component_start_all` leaves behind.  The two passes schedule by
  repeated scans; against them stands the recursion over the dependency graph
  (`InitOk`, `RunOk`).  A successful run explains every final state by the calls
  made, its RUNNING components are those of the recursion, and on an acyclic
  table it succeeds exactly when the recursion lets every required component run.
-/

import AppCore.Component.StartPass

namespace AppCore
namespace Component

/-- The final state of `c` in `g` is explained by the calls made and by the final
    states of its dependencies. -/
structure Explained (g : Lifecycle) (c : ComponentDesc) : Prop where
  settled : (g.runtime c.id).state = .running ∨ (g.runtime c.id).state = .failed ∨
    (g.runtime c.id).state = .skipped
  running_iff : (g.runtime c.id).state = .running ↔
    .init c.id .ok ∈ g.calls ∧ .start c.id .ok ∈ g.calls ∧
      ∀ d ∈ c.dependencies, (g.runtime d).state = .running
  /-- `last_error` is the result of the own init, after the dependencies were
      initialized, or of the own start, with the dependencies RUNNING. -/
  failed_iff : (g.runtime c.id).state = .failed ↔
    (g.runtime c.id).lastError ≠ .ok ∧
      (((∀ d ∈ c.dependencies, .init d .ok ∈ g.calls) ∧
          .init c.id (g.runtime c.id).lastError ∈ g.calls) ∨
        ((∀ d ∈ c.dependencies, (g.runtime d).state = .running) ∧
          .init c.id .ok ∈ g.calls ∧ .start c.id (g.runtime c.id).lastError ∈ g.calls))
  skipped : (g.runtime c.id).state = .skipped →
    ∃ d ∈ c.dependencies, (g.runtime d).state = .failed ∨ (g.runtime d).state = .skipped

section Outcome

variable {comps : List ComponentDesc} {cb : Callbacks} {p : Progress} {done : StartRecord}
  {id : UInt32} {ret : SysErr} {c : ComponentDesc}

/-! ## The record after the start pass -/

theorem init_mem_startLifecycle :
    .init id ret ∈ (startLifecycle comps cb p done).calls ↔
      id ∈ ids p.called ∧ cb.init id = ret := by
  simp only [startLifecycle, List.mem_append, List.mem_map, Call.init.injEq]
  constructor
  · rintro (⟨c, hc, rfl, rfl⟩ | h)
    · exact ⟨⟨c, hc, rfl⟩, rfl⟩
    · obtain ⟨c, o, -, ⟨hx, -⟩ | ⟨hx, -⟩⟩ := mem_startCalls h <;> cases hx
  · rintro ⟨⟨c, hc, rfl⟩, rfl⟩
    exact Or.inl ⟨c, hc, rfl, rfl⟩

theorem start_mem_startLifecycle :
    .start id ret ∈ (startLifecycle comps cb p done).calls ↔
      ∃ c o, (c, o) ∈ done ∧ c.id = id ∧ cb.startResult c = ret ∧ o ≠ .startSkipped := by
  simp only [startLifecycle, List.mem_append, List.mem_map, reduceCtorEq, and_false,
    exists_false, false_or]
  constructor
  · intro h
    obtain ⟨c, o, hc, ⟨hx, ho⟩ | ⟨hx, -⟩⟩ := mem_startCalls h
    · cases hx
      exact ⟨c, o, hc, rfl, rfl, ho⟩
    · cases hx
  · rintro ⟨c, o, hc, rfl, rfl, ho⟩
    refine List.mem_flatMap.mpr ⟨_, hc, ?_⟩
    cases o with
    | running => simp [startCalls]
    | startFailed => simp [startCalls]
    | startSkipped => exact absurd rfl ho

/-! ## A successful run -/

/-- The passes of a `sys_component_start_all` that returned `SYS_OK`. -/
structure Completed (comps : List ComponentDesc) (cb : Callbacks) (p : Progress)
    (done : StartRecord) : Prop where
  inv : p.Inv comps cb
  facts : PassFacts cb p done
  resolved : ∀ c ∈ comps, ¬ p.Pending c
  requiredUp : p.RequiredUp cb
  all_taken : done.map (·.1) = initialized cb p.called
  required_running : ∀ x ∈ done, ¬ StopsPass x.1 x.2

theorem StartAllRun.completed (hacc : Accepted comps) (hp : p.Inv comps cb)
    (h : StartAllRun comps cb .ok p done) : Completed comps cb p done := by
  have hfacts := h.facts hp
  cases h with
  | initError _ hne => exact absurd rfl hne
  | started hpass hrun =>
      obtain ⟨new, hnew, -, hall⟩ := hrun.taken
      rw [List.nil_append] at hnew
      subst hnew
      refine ⟨hp, hfacts, ?_, hpass.requiredUp rfl ⟨by simp, by simp⟩, hall rfl, ?_⟩
      · intro c hc
        exact hpass.resolved rfl c hc (List.mem_range.mpr (hacc.phase_lt c hc))
      · exact hrun.requiredRunning rfl (by simp)

namespace Completed

variable (h : Completed comps cb p done)
include h

theorem mem_done (hc : c ∈ initialized cb p.called) : ∃ o, (c, o) ∈ done := by
  rw [← h.all_taken] at hc
  obtain ⟨⟨e, o⟩, he, rfl⟩ := List.mem_map.mp hc
  exact ⟨o, he⟩

/-- A component was skipped at init, failed at init, or went through the start
    pass. -/
theorem cases (hacc : Accepted comps) (hc : c ∈ comps) :
    c ∈ p.skipped ∨ (c ∈ p.called ∧ cb.init c.id ≠ .ok) ∨ ∃ o, (c, o) ∈ done := by
  have hres := h.resolved c hc
  rw [Progress.Pending, Classical.not_and_iff_not_or_not, not_not, not_not] at hres
  rcases hres with hm | hm
  · obtain ⟨e, he, hid⟩ := List.mem_map.mp hm
    obtain rfl := eq_of_id_eq hacc.nodup (h.inv.called_mem e he) hc hid
    by_cases hok : cb.init e.id = .ok
    · exact Or.inr (Or.inr (h.mem_done (mem_initialized.mpr ⟨he, hok⟩)))
    · exact Or.inr (Or.inl ⟨he, hok⟩)
  · obtain ⟨e, he, hid⟩ := List.mem_map.mp hm
    obtain rfl := eq_of_id_eq hacc.nodup (h.inv.skipped_mem e he) hc hid
    exact Or.inl he

theorem not_mem_done_ids (hc : id ∉ ids (initialized cb p.called)) : id ∉ done.ids := by
  intro hm
  obtain ⟨x, hx, rfl⟩ := List.mem_map.mp hm
  exact hc (mem_ids_of_mem (h.facts.done_initialized hx))

theorem runtime_of_skipped (hc : c ∈ p.skipped) :
    startRuntime cb p done c.id = { state := .skipped, lastError := .dependency } := by
  have hs : c.id ∈ ids p.skipped := mem_ids_of_mem hc
  rw [startRuntime_of_not_mem (h.not_mem_done_ids fun hm =>
    h.inv.disjoint _ (mem_ids_initialized.mp hm).1 hs), Progress.runtime, if_pos hs]

theorem runtime_of_initFailed (hc : c ∈ p.called) (hne : cb.init c.id ≠ .ok) :
    startRuntime cb p done c.id = { state := .failed, lastError := cb.init c.id } := by
  have hm : c.id ∈ ids p.called := mem_ids_of_mem hc
  rw [startRuntime_of_not_mem (h.not_mem_done_ids fun hm =>
    hne (mem_ids_initialized.mp hm).2), Progress.runtime, if_neg (h.inv.disjoint _ hm),
    if_pos hm, if_neg hne]

theorem runtime_of_done {o : StartOutcome} (hc : (c, o) ∈ done) :
    startRuntime cb p done c.id = startSlot cb (c, o) :=
  startRuntime_of_mem h.facts.done_nodup hc

/-- The dependencies of a component whose init was called were initialized. -/
theorem deps_initDone (hc : c ∈ p.called) : ∀ d ∈ c.dependencies, InitDone cb p.called d := by
  intro d hd
  obtain ⟨pre, post, heq⟩ := List.append_of_mem hc
  have := h.inv.called_ready pre c post heq d hd
  rw [heq]
  exact this.append _

/-- A component that is not RUNNING is FAILED or SKIPPED. -/
theorem settled (hacc : Accepted comps) (hc : c ∈ comps) :
    (startRuntime cb p done c.id).state = .running ∨
      (startRuntime cb p done c.id).state = .failed ∨
      (startRuntime cb p done c.id).state = .skipped := by
  rcases h.cases hacc hc with hs | ⟨hf, hne⟩ | ⟨o, ho⟩
  · rw [h.runtime_of_skipped hs]; simp
  · rw [h.runtime_of_initFailed hf hne]; simp
  · rw [h.runtime_of_done ho]
    cases o <;> simp [startSlot]

theorem started_iff : (startRuntime cb p done id).state = .running ↔ id ∈ ids done.started :=
  startRuntime_running_iff h.facts.done_nodup id

/-- Ids are unique: an entry of the start pass under `c.id` is that of `c`. -/
theorem eq_of_mem_done {e : ComponentDesc} {o : StartOutcome} (hacc : Accepted comps)
    (hc : c ∈ comps) (he : (e, o) ∈ done) (hid : e.id = c.id) : e = c :=
  eq_of_id_eq hacc.nodup
    (h.inv.called_mem e (mem_initialized.mp (h.facts.done_initialized he)).1) hc hid

theorem called_of_mem_done {o : StartOutcome} (ho : (c, o) ∈ done) :
    c ∈ p.called ∧ cb.init c.id = .ok :=
  mem_initialized.mp (h.facts.done_initialized ho)

theorem explained_running (hacc : Accepted comps) (hc : c ∈ comps) :
    c.id ∈ ids done.started ↔
      (c.id ∈ ids p.called ∧ cb.init c.id = .ok) ∧
        (∃ e o, (e, o) ∈ done ∧ e.id = c.id ∧ cb.startResult e = .ok ∧ o ≠ .startSkipped) ∧
        ∀ d ∈ c.dependencies, d ∈ ids done.started := by
  constructor
  · intro hm
    obtain ⟨e, he, hid⟩ := List.mem_map.mp hm
    have he' := StartRecord.mem_started.mp he
    obtain rfl := h.eq_of_mem_done hacc hc he' hid
    obtain ⟨hcalled, hok⟩ := h.called_of_mem_done he'
    obtain ⟨hdeps, hstart⟩ := (h.facts.running_iff he').mp rfl
    exact ⟨⟨mem_ids_of_mem hcalled, hok⟩, ⟨e, _, he', rfl, hstart, by decide⟩, hdeps⟩
  · rintro ⟨-, ⟨e, o, he, hid, hstart, -⟩, hdeps⟩
    obtain rfl := h.eq_of_mem_done hacc hc he hid
    obtain rfl := (h.facts.running_iff he).mpr ⟨hdeps, hstart⟩
    exact mem_ids_of_mem (StartRecord.mem_started.mpr he)

/-- A FAILED component failed in its own init or in its own start. -/
theorem failed_cases (hacc : Accepted comps) (hc : c ∈ comps)
    (hst : (startRuntime cb p done c.id).state = .failed) :
    (c ∈ p.called ∧ cb.init c.id ≠ .ok) ∨ (c, StartOutcome.startFailed) ∈ done := by
  rcases h.cases hacc hc with hs | hf | ⟨o, ho⟩
  · rw [h.runtime_of_skipped hs] at hst
    cases hst
  · exact Or.inl hf
  · rw [h.runtime_of_done ho] at hst
    cases o with
    | running => cases hst
    | startFailed => exact Or.inr ho
    | startSkipped => cases hst

/-- A SKIPPED component was skipped by one of the two passes. -/
theorem skipped_cases (hacc : Accepted comps) (hc : c ∈ comps)
    (hst : (startRuntime cb p done c.id).state = .skipped) :
    c ∈ p.skipped ∨ (c, StartOutcome.startSkipped) ∈ done := by
  rcases h.cases hacc hc with hs | ⟨hf, hne⟩ | ⟨o, ho⟩
  · exact Or.inl hs
  · rw [h.runtime_of_initFailed hf hne] at hst
    cases hst
  · rw [h.runtime_of_done ho] at hst
    cases o with
    | running => cases hst
    | startFailed => cases hst
    | startSkipped => exact Or.inr ho

/-- A component whose own init or start returned its `last_error` is FAILED. -/
theorem failed_of_result (hacc : Accepted comps) (hc : c ∈ comps)
    (hne : (startRuntime cb p done c.id).lastError ≠ .ok)
    (hcall : (c.id ∈ ids p.called ∧ cb.init c.id = (startRuntime cb p done c.id).lastError) ∨
      ∃ o, (c, o) ∈ done ∧ cb.startResult c = (startRuntime cb p done c.id).lastError ∧
        o ≠ .startSkipped) :
    (startRuntime cb p done c.id).state = .failed := by
  rcases hcall with ⟨hm, hret⟩ | ⟨o, ho, hret, hns⟩
  · rcases h.cases hacc hc with hs | ⟨hf, hfne⟩ | ⟨o, ho⟩
    · exact absurd (mem_ids_of_mem hs) (h.inv.disjoint _ hm)
    · rw [h.runtime_of_initFailed hf hfne]
    · rw [(h.called_of_mem_done ho).2] at hret
      exact absurd hret.symm hne
  · rw [h.runtime_of_done ho] at hne ⊢
    cases o with
    | running => exact absurd rfl hne
    | startFailed => rfl
    | startSkipped => exact absurd rfl hns

theorem explained (hacc : Accepted comps) (hc : c ∈ comps) :
    Explained (startLifecycle comps cb p done) c := by
  have hrt : (startLifecycle comps cb p done).runtime = startRuntime cb p done := rfl
  constructor
  · exact h.settled hacc hc
  · -- RUNNING
    simp only [hrt, init_mem_startLifecycle, start_mem_startLifecycle, h.started_iff]
    exact h.explained_running hacc hc
  · -- FAILED
    simp only [hrt, init_mem_startLifecycle, start_mem_startLifecycle]
    constructor
    · intro hst
      rcases h.failed_cases hacc hc hst with ⟨hf, hne⟩ | ho
      · rw [h.runtime_of_initFailed hf hne]
        exact ⟨hne, Or.inl ⟨fun d hd => h.deps_initDone hf d hd, mem_ids_of_mem hf, rfl⟩⟩
      · rw [h.runtime_of_done ho]
        obtain ⟨hcalled, hok⟩ := h.called_of_mem_done ho
        cases h.facts.cases ho with
        | startFailed hdeps hne =>
            exact ⟨hne, Or.inr ⟨fun d hd => h.started_iff.mpr (hdeps d hd),
              ⟨mem_ids_of_mem hcalled, hok⟩, c, _, ho, rfl, rfl, by decide⟩⟩
    · rintro ⟨hne, ⟨-, hinit⟩ | ⟨-, -, e, o, he, hid, hret, ho⟩⟩
      · exact h.failed_of_result hacc hc hne (Or.inl hinit)
      · obtain rfl := h.eq_of_mem_done hacc hc he hid
        exact h.failed_of_result hacc hc hne (Or.inr ⟨o, he, hret, ho⟩)
  · -- SKIPPED
    simp only [hrt]
    intro hst
    -- a dependency that was not started ended FAILED or SKIPPED
    have hdown : ∀ d ∈ c.dependencies, d ∉ ids done.started →
        (startRuntime cb p done d).state = .failed ∨
          (startRuntime cb p done d).state = .skipped := by
      intro d hd hns
      obtain ⟨e, he, rfl, -⟩ := hacc.known c hc d hd
      exact (h.settled hacc he).resolve_left fun hr => hns (h.started_iff.mp hr)
    rcases h.skipped_cases hacc hc hst with hs | ho
    · obtain ⟨d, hd, hdd⟩ := h.inv.skipped_down hs
      refine ⟨d, hd, hdown d hd fun hm => ?_⟩
      obtain ⟨e, he, rfl⟩ := List.mem_map.mp hm
      obtain ⟨hcalled, hok⟩ := h.called_of_mem_done (StartRecord.mem_started.mp he)
      exact h.inv.not_down_of_initDone ⟨mem_ids_of_mem hcalled, hok⟩ hdd
    · cases h.facts.cases ho with
      | startSkipped hd hns => exact ⟨_, hd, hdown _ hd hns⟩

/-- Every required component is RUNNING. -/
theorem required (hacc : Accepted comps) (hc : c ∈ comps) (hreq : c.policy = policyRequired) :
    (startRuntime cb p done c.id).state = .running := by
  rcases h.cases hacc hc with hs | ⟨hf, hne⟩ | ⟨o, ho⟩
  · exact absurd hreq (h.requiredUp.2 c hs)
  · exact absurd (h.requiredUp.1 c hf hreq) hne
  · have hrun : o = .running := by
      by_contra hne
      exact h.required_running _ ho ⟨hne, hreq⟩
    subst hrun
    rw [h.runtime_of_done ho]
    rfl

/-- RUNNING is the recursion over the graph. -/
theorem running_iff_runOk (hacc : Accepted comps) (hc : c ∈ comps) :
    (startRuntime cb p done c.id).state = .running ↔ RunOk comps cb c.id := by
  rw [h.started_iff]
  constructor
  · exact h.facts.runOk_of_started h.inv c.id
  · intro hrun
    have hinit := hrun.initOk
    rcases h.cases hacc hc with hs | ⟨hf, hne⟩ | ⟨o, ho⟩
    · exact absurd hinit
        (h.inv.not_initOk_of_down hacc.nodup (Or.inr (mem_ids_of_mem hs)))
    · exact absurd hinit
        (h.inv.not_initOk_of_down hacc.nodup (Or.inl ⟨mem_ids_of_mem hf, hne⟩))
    · obtain rfl := h.facts.running_of_runOk hacc h.inv hrun c o ho rfl
      exact mem_ids_of_mem (StartRecord.mem_started.mpr ho)

end Completed

/-! ## A failed run -/

/-- `sys_component_start_all` only fails when a required component cannot run or
    the recursion does not decide about every component. -/
theorem StartAllRun.obstacle (hacc : Accepted comps) (hp : p.Inv comps cb)
    (h : StartAllRun comps cb ret p done) (hne : ret ≠ .ok) :
    (∃ c ∈ comps, c.policy = policyRequired ∧ ¬ RunOk comps cb c.id) ∨
      ∃ c ∈ comps, ¬ Settled comps cb c.id := by
  have hfacts := h.facts hp
  cases h with
  | initError hpass _ =>
      have hobs := hpass.obstacle hacc hne Progress.inv_empty (k := 0)
        (by rw [Nat.sub_zero, List.range_eq_range']) (fun c _ hlt => absurd hlt (by omega))
      rcases hobs with ⟨c, hc, hreq, hnot⟩ | hns
      · exact Or.inl ⟨c, hc, hreq, fun hrun => hnot hrun.initOk⟩
      · exact Or.inr hns
  | started _ hrun =>
      obtain ⟨pre, c, heq, hc, hstop⟩ := hrun.halted hne
      have hmem : c ∈ comps := hp.called_mem c (mem_initialized.mp hc).1
      refine Or.inl ⟨c, hmem, hstop.2, fun hok => hstop.1 ?_⟩
      exact hfacts.running_of_runOk hacc hp hok c _ (by rw [heq]; simp) rfl

end Outcome

/-- The outcome of `sys_component_start_all` on an accepted section. -/
theorem sysComponentStartAll_outcome (cb : Callbacks) (sec : LinkSection) (g : Lifecycle)
    (h : (collectComponents sec g).1 = .ok) :
    ∃ r g', sysComponentStartAll cb sec { g with calls := [] } = some (r, g') ∧
      (r = .ok → (∀ c ∈ sec.table, Explained g' c) ∧
        ∀ c ∈ sec.table, c.policy = policyRequired → (g'.runtime c.id).state = .running) ∧
      (Acyclic sec.table →
        (∀ c ∈ sec.table, c.policy = policyRequired → RunOk sec.table cb c.id) →
        r = .ok ∧
          ∀ c ∈ sec.table, (g'.runtime c.id).state = .running ↔ RunOk sec.table cb c.id) ∧
      (Acyclic sec.table →
        (∃ c ∈ sec.table, c.policy = policyRequired ∧ ¬ RunOk sec.table cb c.id) →
        r ≠ .ok) := by
  have h' : (collectComponents sec { g with calls := [] }).1 = .ok := by
    rw [collectComponents_fst sec _ g]
    exact h
  obtain ⟨hacc, -⟩ := collectComponents_ok cb h
  obtain ⟨r, p, done, hrun, hp, heq⟩ := sysComponentStartAll_spec cb h' rfl
  refine ⟨r, _, heq, ?_, ?_, ?_⟩
  · rintro rfl
    have hcomp := hrun.completed hacc hp
    rw [if_pos rfl]
    exact ⟨fun c hc => hcomp.explained hacc hc, fun c hc => hcomp.required hacc hc⟩
  · intro hac hall
    have hr : r = .ok := by
      by_contra hne
      rcases hrun.obstacle hacc hp hne with ⟨c, hc, hreq, hnot⟩ | ⟨c, hc, hns⟩
      · exact hnot (hall c hc hreq)
      · exact hns (hac.settled hacc c hc)
    subst hr
    have hcomp := hrun.completed hacc hp
    rw [if_pos rfl]
    exact ⟨rfl, fun c hc => hcomp.running_iff_runOk hacc hc⟩
  · rintro - ⟨c, hc, hreq, hnot⟩ rfl
    have hcomp := hrun.completed hacc hp
    exact hnot ((hcomp.running_iff_runOk hacc hc).mp (hcomp.required hacc hc hreq))

/-- An optional component that fails to start takes its dependent down and leaves
    the required component RUNNING. -/
theorem sysComponentStartAll_outcome_optional :
    ∃ g', sysComponentStartAll (Callbacks.failing [] [2])
        (.ofList [.core 3 policyOptional [2], .core 2 policyOptional [1],
          .core 1 policyRequired []]) { Lifecycle.zero with calls := [] } = some (.ok, g') ∧
      (g'.runtime 1).state = .running := by
  have hret : (sysComponentStartAll (Callbacks.failing [] [2])
      (.ofList [.core 3 policyOptional [2], .core 2 policyOptional [1],
        .core 1 policyRequired []]) { Lifecycle.zero with calls := [] }).map (·.1) =
      some .ok := by decide
  obtain ⟨r, g', heq, hok, -⟩ := sysComponentStartAll_outcome (Callbacks.failing [] [2])
    (.ofList [.core 3 policyOptional [2], .core 2 policyOptional [1],
      .core 1 policyRequired []]) .zero (by decide)
  rw [heq] at hret
  obtain rfl : r = .ok := by simpa using hret
  exact ⟨g', heq, (hok rfl).2 (.core 1 policyRequired []) (by decide) rfl⟩

end Component
end AppCore
