/-
  AppCore.Component.Cycles

  Dependency cycles.  `validate_components` lets them pass; a component on one is never
  initialized, and `start_all` notices it when a round finds nobody to initialize and nobody
  to skip.  A failed init below an optional cycle hides it: the cycle is skipped like any
  other component with a failed dependency.
-/

import AppCore.Component.Outcome

namespace AppCore
namespace Component

section Cycle

variable {comps : List ComponentDesc} {cb : Callbacks} {i : UInt32} {c : ComponentDesc}

/-- The component depends on itself, directly or through others. -/
def OnCycle (comps : List ComponentDesc) (i : UInt32) : Prop :=
  Relation.TransGen (DependsOn comps) i i

/-- Some dependency of a component on a cycle is on the cycle too. -/
theorem OnCycle.dependency (hnd : (ids comps).Nodup) (hc : c ∈ comps) (h : OnCycle comps c.id) :
    ∃ d ∈ c.dependencies, OnCycle comps d := by
  obtain ⟨d, hfirst, hback⟩ := Relation.TransGen.head'_iff.mp h
  obtain ⟨e, he, hid, hd⟩ := hfirst
  obtain rfl := eq_of_id_eq hnd he hc hid
  exact ⟨d, hd, Relation.TransGen.tail' hback ⟨e, he, rfl, hd⟩⟩

/-- A component on a cycle is not init-ok. -/
theorem InitOk.not_onCycle (hnd : (ids comps).Nodup) (h : InitOk comps cb i) :
    ¬ OnCycle comps i := by
  -- the next component on the cycle is init-ok as well
  induction h with
  | intro hc _ _ ih =>
      intro hcycle
      obtain ⟨d, hd, hcycle'⟩ := hcycle.dependency hnd hc
      exact ih d hd hcycle'

/-- What the initialization gives up goes back to a component whose own init fails. -/
theorem InitDown.cause (h : InitDown comps cb i) :
    ∃ f ∈ comps, Relation.ReflTransGen (DependsOn comps) i f.id ∧
      (∀ d ∈ f.dependencies, InitOk comps cb d) ∧ cb.init f.id ≠ .ok := by
  induction h with
  | @fail c hc hdeps hne => exact ⟨c, hc, Relation.ReflTransGen.refl, hdeps, hne⟩
  | @skip c pre d post hc heq _ _ ih =>
      obtain ⟨f, hf, hpath, hdeps, hne⟩ := ih
      have hfirst : DependsOn comps c.id d := ⟨c, hc, rfl, by rw [heq]; simp⟩
      exact ⟨f, hf, hpath.head hfirst, hdeps, hne⟩

/-- A component on a cycle that is given up depends on the one whose init fails. -/
theorem InitDown.cause_of_onCycle (hnd : (ids comps).Nodup) (h : InitDown comps cb i)
    (hcycle : OnCycle comps i) :
    ∃ f ∈ comps, Relation.TransGen (DependsOn comps) i f.id ∧
      (∀ d ∈ f.dependencies, InitOk comps cb d) ∧ cb.init f.id ≠ .ok := by
  obtain ⟨f, hf, hpath, hdeps, hne⟩ := h.cause
  rcases Relation.reflTransGen_iff_eq_or_transGen.mp hpath with rfl | hpath
  · -- `f` itself is not on a cycle
    obtain ⟨d, hd, hcycle'⟩ := hcycle.dependency hnd hf
    exact absurd hcycle' ((hdeps d hd).not_onCycle hnd)
  · exact ⟨f, hf, hpath, hdeps, hne⟩

namespace Completed

variable {p : Progress} {done : StartRecord}

/-- A pass that completes has decided about every component. -/
theorem initDown_or_initDone (h : Completed comps cb p done) (hacc : Accepted comps)
    (hc : c ∈ comps) : InitDown comps cb c.id ∨ InitDone cb p.called c.id := by
  rcases h.cases hacc hc with hs | ⟨hf, hne⟩ | ⟨o, ho⟩
  · exact Or.inl (h.inv.initDown_of_down (Or.inr (mem_ids_of_mem hs)))
  · exact Or.inl (h.inv.initDown_of_down (Or.inl ⟨mem_ids_of_mem hf, hne⟩))
  · obtain ⟨hcalled, hok⟩ := mem_initialized.mp (h.facts.done_initialized ho)
    exact Or.inr ⟨mem_ids_of_mem hcalled, hok⟩

theorem settled_graph (h : Completed comps cb p done) (hacc : Accepted comps) (hc : c ∈ comps) :
    Settled comps cb c.id := by
  rcases h.initDown_or_initDone hacc hc with hdown | hdone
  · exact Or.inr hdown
  · exact Or.inl (h.inv.initOk hdone)

/-- A component on a cycle has been skipped. -/
theorem skipped_of_onCycle (h : Completed comps cb p done) (hacc : Accepted comps)
    (hc : c ∈ comps) (hcycle : OnCycle comps c.id) : c ∈ p.skipped := by
  rcases h.cases hacc hc with hs | ⟨hf, -⟩ | ⟨o, ho⟩
  · exact hs
  · obtain ⟨d, hd, hcycle'⟩ := hcycle.dependency hacc.nodup hc
    have hdone := h.deps_initDone hf d hd
    exact absurd hcycle' ((h.inv.initOk hdone).not_onCycle hacc.nodup)
  · obtain ⟨hcalled, hok⟩ := mem_initialized.mp (h.facts.done_initialized ho)
    have hdone : InitDone cb p.called c.id := ⟨mem_ids_of_mem hcalled, hok⟩
    exact absurd hcycle ((h.inv.initOk hdone).not_onCycle hacc.nodup)

/-- A component whose init fails with its dependencies init-ok is FAILED. -/
theorem failed_of_init (h : Completed comps cb p done) (hacc : Accepted comps) (hc : c ∈ comps)
    (hdeps : ∀ d ∈ c.dependencies, InitOk comps cb d) (hne : cb.init c.id ≠ .ok) :
    (startRuntime cb p done c.id).state = .failed := by
  rcases h.cases hacc hc with hs | ⟨hf, -⟩ | ⟨o, ho⟩
  · obtain ⟨d, hd, hdown⟩ := h.inv.skipped_down hs
    exact absurd (hdeps d hd) (h.inv.not_initOk_of_down hacc.nodup hdown)
  · rw [h.runtime_of_initFailed hf hne]
  · exact absurd (mem_initialized.mp (h.facts.done_initialized ho)).2 hne

end Completed

/-- A component on a cycle that a successful `start_all` left behind: it is optional, it was
    skipped without a call, and the reason is a component below it whose init failed. -/
structure CycleSkipped (comps : List ComponentDesc) (cb : Callbacks) (g : Lifecycle)
    (c : ComponentDesc) : Prop where
  optional : c.policy ≠ policyRequired
  skipped : (g.runtime c.id).state = .skipped
  error : (g.runtime c.id).lastError = .dependency
  not_called : ∀ ret, .init c.id ret ∉ g.calls
  cause : ∃ f ∈ comps, Relation.TransGen (DependsOn comps) c.id f.id ∧ cb.init f.id ≠ .ok ∧
    (g.runtime f.id).state = .failed

theorem Completed.cycleSkipped {p : Progress} {done : StartRecord}
    (h : Completed comps cb p done) (hacc : Accepted comps) (hc : c ∈ comps)
    (hcycle : OnCycle comps c.id) : CycleSkipped comps cb (startLifecycle comps cb p done) c := by
  have hs := h.skipped_of_onCycle hacc hc hcycle
  have hruntime : (startLifecycle comps cb p done).runtime = startRuntime cb p done := rfl
  constructor
  · exact h.requiredUp.2 c hs
  · rw [hruntime, h.runtime_of_skipped hs]
  · rw [hruntime, h.runtime_of_skipped hs]
  · intro ret hmem
    obtain ⟨hcalled, -⟩ := init_mem_startLifecycle.mp hmem
    exact h.inv.disjoint c.id hcalled (mem_ids_of_mem hs)
  · have hdown := h.inv.initDown_of_down (Or.inr (mem_ids_of_mem hs))
    obtain ⟨f, hf, hpath, hdeps, hne⟩ := hdown.cause_of_onCycle hacc.nodup hcycle
    exact ⟨f, hf, hpath, hne, h.failed_of_init hacc hf hdeps hne⟩

end Cycle

/-- On an accepted section `start_all` returns `SYS_OK` exactly when the recursion over the
    graph decides about every component and lets every required one run; and then every
    component on a cycle has been skipped because of a failed init below it. -/
theorem sysComponentStartAll_cycle (cb : Callbacks) (sec : LinkSection) (g : Lifecycle)
    (h : (collectComponents sec g).1 = .ok) :
    ∃ r g', sysComponentStartAll cb sec { g with calls := [] } = some (r, g') ∧
      (r = .ok ↔ (∀ c ∈ sec.table, Settled sec.table cb c.id) ∧
        ∀ c ∈ sec.table, c.policy = policyRequired → RunOk sec.table cb c.id) ∧
      (r = .ok → ∀ c ∈ sec.table, OnCycle sec.table c.id →
        CycleSkipped sec.table cb g' c) := by
  have h' : (collectComponents sec { g with calls := [] }).1 = .ok := by
    rw [collectComponents_fst sec _ g]
    exact h
  obtain ⟨hacc, -⟩ := collectComponents_ok cb h
  obtain ⟨r, p, done, hrun, hp, heq⟩ := sysComponentStartAll_spec cb h' rfl
  refine ⟨r, _, heq, ⟨?_, ?_⟩, ?_⟩
  · rintro rfl
    have hcomp := hrun.completed hacc hp
    refine ⟨fun c hc => hcomp.settled_graph hacc hc, fun c hc hreq => ?_⟩
    exact (hcomp.running_iff_runOk hacc hc).mp (hcomp.required hacc hc hreq)
  · rintro ⟨hsettled, hall⟩
    by_contra hne
    rcases hrun.obstacle hacc hp hne with ⟨c, hc, hreq, hnot⟩ | ⟨c, hc, hns⟩
    · exact hnot (hall c hc hreq)
    · exact hns (hsettled c hc)
  · rintro rfl c hc hcycle
    rw [if_pos rfl]
    exact (hrun.completed hacc hp).cycleSkipped hacc hc hcycle

/-- With a required component on the cycle the call fails, whatever the callbacks do. -/
theorem sysComponentStartAll_cycle_required :
    ∃ r g', sysComponentStartAll (Callbacks.failing [1] [])
        (.ofList [.core 1 policyOptional [], .core 2 policyRequired [1, 3],
          .core 3 policyOptional [2]]) { Lifecycle.zero with calls := [] } = some (r, g') ∧
      r ≠ .ok := by
  obtain ⟨r, g', heq, -, hcycle⟩ := sysComponentStartAll_cycle (Callbacks.failing [1] [])
    (.ofList [.core 1 policyOptional [], .core 2 policyRequired [1, 3],
      .core 3 policyOptional [2]]) .zero (by decide)
  refine ⟨r, g', heq, fun hok => ?_⟩
  refine (hcycle hok (.core 2 policyRequired [1, 3]) (by decide) ?_).optional rfl
  refine Relation.TransGen.tail (b := 3) (Relation.TransGen.single ?_) ?_
  · exact ⟨.core 2 policyRequired [1, 3], by decide, rfl, by decide⟩
  · exact ⟨.core 3 policyOptional [2], by decide, rfl, by decide⟩

/-- Components 2 and 3, both optional, depend on each other, and 2 also on 1, whose init
    fails: `start_all` returns `SYS_OK`. -/
theorem cycle_unreported :
    ¬ ∀ (cb : Callbacks) (sec : LinkSection) (g g' : Lifecycle) (r : SysErr),
      (collectComponents sec g).1 = .ok → ¬ Acyclic sec.table →
        sysComponentStartAll cb sec g = some (r, g') → r ≠ .ok := by
  intro hall
  obtain ⟨⟨r, g'⟩, hrun⟩ : ∃ x, sysComponentStartAll (Callbacks.failing [1] [])
      (.ofList [.core 1 policyOptional [], .core 2 policyOptional [1, 3],
        .core 3 policyOptional [2]]) .zero = some x := Option.isSome_iff_exists.mp (by decide)
  have hret : r = .ok := by
    have hmap : (sysComponentStartAll (Callbacks.failing [1] [])
        (.ofList [.core 1 policyOptional [], .core 2 policyOptional [1, 3],
          .core 3 policyOptional [2]]) .zero).map (·.1) = some .ok := by decide
    rw [hrun] at hmap
    exact Option.some.inj hmap
  refine hall _ _ _ g' r (by decide) (fun hac => hac 2 ?_) hrun hret
  refine Relation.TransGen.tail (b := 3) (Relation.TransGen.single ?_) ?_
  · exact ⟨.core 2 policyOptional [1, 3], by decide, rfl, by decide⟩
  · exact ⟨.core 3 policyOptional [2], by decide, rfl, by decide⟩

end Component
end AppCore
