/-
  AppCore.Features.Operations

  What the registry guarantees to the calls of the features' operations, and to the features:
  no operation runs before the `init` of its feature or after its `deinit`, and a `deinit`
  returns as soon as the calls that it finds have gone on.
-/

import AppCore.Features.Calls

namespace AppCore
namespace Features

open Service (Holding serviceMaxEntries criticalSection)

variable {K : Type*} [DecidableEq K] {P : Platform} {A : Tables} {s s' : System K} {k : K}
  {c : Facade} {ref : Holding} {f : Feature} {x : Fin serviceMaxEntries}

/-- Wherever a call is between its acquire and its release, the feature has been initialised
    and its `deinit` has not returned, and the slot of the reference has the descriptor of that
    feature, the table of which has the operation. -/
theorem operation_covered (h : (featureMachine K P A).Reachable s)
    (hk : (s.calls k).ref = some (c, ref)) :
    s.life c.feature ≠ .down ∧ (s.registry.slots ref.slot).used = true ∧
      (s.registry.slots ref.slot).desc = A.service P c.feature ∧
      c.operation ∈ c.feature.operations := by
  have hsound := sound_of_reachable h
  obtain ⟨hmem, hdesc⟩ := hsound.held.held k c ref hk
  obtain ⟨hused, hslot⟩ := (registry_safe h).described ref hmem
  have hkey : (s.registry.slots ref.slot).desc.key = (A.service P c.feature).key := by
    rw [hslot, hdesc]
  exact ⟨(hsound.registered.desc_eq hused hkey).2, hused, hslot.trans hdesc, c.operation_mem⟩

/-- A call is in an operation of the first feature. -/
theorem operation_covered_running :
    ∃ (s : System Unit) (c : Facade) (ref : Holding), s.calls () = .running c ref ∧
      s.life c.feature ≠ .down ∧ (s.registry.slots ref.slot).used = true := by
  have hexec : Machine.exec (next .lp64 Tables.sample) (System.zero Unit)
      [.init .wifi, .call () (.wifiGetRssi true), .operate ()] = some _ := rfl
  have hreach : (featureMachine Unit .lp64 Tables.sample).Reachable _ :=
    ⟨_, _, rfl, Machine.Run.of_exec hexec⟩
  obtain ⟨hlife, hused, -, -⟩ := operation_covered (k := ()) hreach rfl
  exact ⟨_, _, _, rfl, hlife, hused⟩

/-- The reference count of a slot is the number of calls between their acquire and their
    release there: a service that nobody calls has none. -/
theorem reference_count_is_calls (h : (featureMachine K P A).Reachable s)
    (x : Fin serviceMaxEntries) :
    {k | ∃ c ref, (s.calls k).ref = some (c, ref) ∧ ref.slot = x}.Finite ∧
      (s.registry.slots x).referenceCount =
        {k | ∃ c ref, (s.calls k).ref = some (c, ref) ∧ ref.slot = x}.ncard := by
  have hcounted := (sound_of_reachable h).counted
  have hiff : ∀ k, (∃ c ref, (s.calls k).ref = some (c, ref) ∧ ref.slot = x) ↔
      (s.calls k).refs x = 1 := by
    intro k
    cases hk : (s.calls k).ref with
    | none =>
        rw [refs_of_none hk]
        constructor
        · rintro ⟨c, ref, h, -⟩
          cases h
        · intro h
          cases h
    | some r =>
        obtain ⟨c, ref⟩ := r
        rw [refs_of_some hk]
        constructor
        · rintro ⟨c', ref', h, hslot⟩
          cases h
          exact if_pos hslot
        · intro h
          refine ⟨c, ref, rfl, ?_⟩
          by_contra hslot
          rw [if_neg hslot] at h
          cases h
  simp only [hiff]
  obtain ⟨hsupport, hpos⟩ := Family.support_eq_one fun k => refs_le (s.calls k) x
  refine ⟨hsupport ▸ hcounted.finite x, ?_⟩
  rw [hcounted.count, Family.finsum_eq_ncard fun k => refs_le (s.calls k) x, hpos]

theorem reference_count_is_calls_running :
    ∃ s : System Unit, (s.registry.slots 0).referenceCount = 1 ∧
      (s.registry.slots 0).referenceCount =
        {k | ∃ c ref, (s.calls k).ref = some (c, ref) ∧ ref.slot = 0}.ncard := by
  have hexec : Machine.exec (next .lp64 Tables.sample) (System.zero Unit)
      [.init .wifi, .call () (.wifiGetRssi true), .operate ()] = some _ := rfl
  have hreach : (featureMachine Unit .lp64 Tables.sample).Reachable _ :=
    ⟨_, _, rfl, Machine.Run.of_exec hexec⟩
  exact ⟨_, rfl, (reference_count_is_calls hreach 0).2⟩

/-! ## The wait of a `deinit` -/

/-- A call goes on from where it is. -/
def Event.Advances : Event K → Prop
  | .operate _ => True
  | .operationReturns _ _ => True
  | .release _ => True
  | _ => False

/-- The steps that are left of a call. -/
def CallState.left : CallState → Nat
  | .holding _ _ => 3
  | .running _ _ => 2
  | .releasing _ _ _ => 1
  | _ => 0

/-- The steps that are left of a call, if it has a reference to the slot. -/
def CallState.leftAt (x : Fin serviceMaxEntries) (st : CallState) : Nat := st.refs x * st.left

omit [DecidableEq K] in
theorem left_le (st : CallState) : st.left ≤ 3 := by
  cases st <;> simp [CallState.left]

/-- A call that has a reference can go on, whatever the others do. -/
theorem call_advances (h : (featureMachine K P A).Reachable s)
    (hk : (s.calls k).ref = some (c, ref)) :
    ∃ e st t, e.Advances ∧ next P A s e = some t ∧ t.calls = Function.update s.calls k st ∧
      t.life = s.life ∧ t.registry.waiting = s.registry.waiting ∧
      st.leftAt ref.slot < (s.calls k).leftAt ref.slot := by
  have hrefs : (s.calls k).refs ref.slot = 1 := by
    rw [refs_of_some hk, if_pos rfl]
  have hless : ∀ st : CallState, st.left < (s.calls k).left →
      st.leftAt ref.slot < (s.calls k).leftAt ref.slot := by
    intro st hst
    calc st.leftAt ref.slot
      _ ≤ 1 * st.left := Nat.mul_le_mul_right _ (refs_le st _)
      _ < 1 * (s.calls k).left := by omega
      _ = (s.calls k).leftAt ref.slot := by rw [CallState.leftAt, hrefs]
  cases hcall : s.calls k with
  | holding c' ref' =>
      by_cases hdefined : A.defined c'.operation = false
      · refine ⟨.operate k, .releasing c' ref' .notSupported, s.setCall k _, trivial, ?_, rfl,
          rfl, rfl, ?_⟩
        · simp only [next, hcall, if_pos hdefined]
        · rw [← hcall]
          apply hless
          rw [hcall]
          exact (by decide : 1 < 3)
      · refine ⟨.operate k, .running c' ref', s.setCall k _, trivial, ?_, rfl, rfl, rfl, ?_⟩
        · simp only [next, hcall, if_neg hdefined]
        · rw [← hcall]
          apply hless
          rw [hcall]
          exact (by decide : 2 < 3)
  | running c' ref' =>
      refine ⟨.operationReturns k .ok, .releasing c' ref' (c'.answer .ok), s.setCall k _, trivial,
        ?_, rfl, rfl, rfl, ?_⟩
      · simp only [next, hcall]
      · rw [← hcall]
        apply hless
        rw [hcall]
        exact (by decide : 1 < 2)
  | releasing c' ref' ret =>
      have hsound := sound_of_reachable h
      have hmem : ref' ∈ s.registry.outstanding := by
        refine (hsound.held.held k c' ref' ?_).1
        rw [hcall]
        rfl
      have hidle := hsound.waiting.facade k
      obtain ⟨⟨code, registry⟩, hsection⟩ : ∃ r, criticalSection P.sizeMax s.registry
          (.release (.facade k) ref') = some r := by
        rw [Service.criticalSection_of_idle (fun _ hwake => by cases hwake) hidle]
        exact ⟨_, if_pos hmem⟩
      obtain ⟨-, hregistry⟩ := Service.release_section hsection
      refine ⟨.release k, .returned c' ret,
        ({ s with registry := registry } : System K).setCall k _, trivial, ?_, rfl, rfl, ?_, ?_⟩
      · simp only [next, hcall, System.enter, hsection, Option.map_some]
      · show registry.waiting = s.registry.waiting
        rw [hregistry]
      · rw [← hcall]
        apply hless
        rw [hcall]
        exact (by decide : 0 < 1)
  | idle =>
      rw [hcall] at hk
      cases hk
  | returned c' ret =>
      rw [hcall] at hk
      cases hk

/-- A `deinit` that waits can return after no more than three steps of each call that it waits
    for: the calls go on by themselves, and new ones are not needed for it. -/
theorem deinit_returns (h : (featureMachine K P A).Reachable s) (hf : s.life f = .stopping) :
    ∃ x es t u, s.registry.waiting (.component f) = .unregister f.moduleId f.interfaceId x ∧
      (∀ e ∈ es, e.Advances) ∧ es.length ≤ 3 * (s.registry.slots x).referenceCount ∧
      (featureMachine K P A).Run s es t ∧ next P A t (.deinitWake f) = some u ∧
      u.life f = .down := by
  have hsound := sound_of_reachable h
  obtain ⟨x, hx⟩ := hsound.waiting.stopping f hf
  let I : System K → Prop := fun s => (featureMachine K P A).Reachable s ∧ s.life f = .stopping ∧
    s.registry.waiting (.component f) = .unregister f.moduleId f.interfaceId x
  let μ : System K → Nat := fun s => ∑ᶠ k, (s.calls k).leftAt x
  have hfinite : ∀ s : System K, (featureMachine K P A).Reachable s →
      (Function.support fun k => (s.calls k).leftAt x).Finite := by
    intro s hs
    refine ((sound_of_reachable hs).counted.finite x).subset fun k hk hzero => hk ?_
    have hzero : (s.calls k).refs x = 0 := hzero
    show (s.calls k).refs x * (s.calls k).left = 0
    rw [hzero, Nat.zero_mul]
  have hstep : ∀ s, I s → ¬ (s.registry.slots x).referenceCount = 0 →
      ∃ e t, e.Advances ∧ (featureMachine K P A).step s e t ∧ I t ∧ μ t < μ s := by
    intro s hI hne
    obtain ⟨hreach, hlife, hwait⟩ := hI
    -- some call has a reference to the slot
    have hsome : ∃ k, (s.calls k).refs x ≠ 0 := by
      by_contra hnone
      push Not at hnone
      apply hne
      rw [(sound_of_reachable hreach).counted.count, finsum_eq_zero_of_forall_eq_zero hnone]
    obtain ⟨k, hk⟩ := hsome
    obtain ⟨⟨c, ref⟩, href⟩ : ∃ r, (s.calls k).ref = some r := by
      apply Option.ne_none_iff_exists'.mp
      intro hnone
      exact hk (refs_of_none hnone x)
    have hslot : ref.slot = x := by
      by_contra hslot
      rw [refs_of_some href, if_neg hslot] at hk
      exact hk rfl
    subst hslot
    obtain ⟨e, st, t, hadvances, hnext, hcalls, hlife', hwait', hless⟩ := call_advances hreach href
    refine ⟨e, t, hadvances, hnext, ⟨hreach.step hnext, ?_, ?_⟩, ?_⟩
    · rw [hlife']
      exact hlife
    · rw [hwait']
      exact hwait
    · have hupdate := Family.finsum_update_add
        (f := fun _ (st : CallState) => st.leftAt ref.slot) (hfinite s hreach) k st
      have hμ : μ t = ∑ᶠ j, (Function.update s.calls k st j).leftAt ref.slot := by
        show ∑ᶠ j, (t.calls j).leftAt ref.slot = _
        rw [hcalls]
      have hs : μ s = ∑ᶠ j, (s.calls j).leftAt ref.slot := rfl
      omega
  obtain ⟨es, t, hes, hlength, hrun, ⟨-, hlife, hwait⟩, hz⟩ :=
    Machine.exists_run_of_measure (M := featureMachine K P A) (I := I)
      (Q := fun s => (s.registry.slots x).referenceCount = 0) (A := Event.Advances) μ hstep
      ⟨h, hf, hx⟩
  have hbound : μ s ≤ 3 * (s.registry.slots x).referenceCount := by
    rw [hsound.counted.count, Nat.mul_comm, finsum_mul]
    refine finsum_le_finsum' (hfinite s h) ?_ fun k => Nat.mul_le_mul_left _ (left_le _)
    refine (hsound.counted.finite x).subset fun k hk hzero => hk ?_
    have hzero : (s.calls k).refs x = 0 := hzero
    show (s.calls k).refs x * 3 = 0
    rw [hzero, Nat.zero_mul]
  have hwake : ∃ u, next P A t (.deinitWake f) = some u ∧ u.life f = .down := by
    refine ⟨({ t with registry := { t.registry with
        slots := Function.update t.registry.slots x {}
        waiting := Function.update t.registry.waiting (.component f) .idle } } :
      System K).setLife f .down, ?_, Function.update_self ..⟩
    have hz : (t.registry.slots x).referenceCount = 0 := hz
    simp only [next, if_pos hlife, System.enter, criticalSection, Service.resume, hwait,
      Service.unregisterLoop, hz, ne_eq, not_true_eq_false, if_false, Option.map_some,
      reduceCtorEq]
    rfl
  obtain ⟨u, hu, hdown⟩ := hwake
  exact ⟨x, es, t, u, hx, hes, hlength.trans hbound, hrun, hu, hdown⟩

/-- The first feature is stopped while a call is in one of its operations. -/
theorem deinit_returns_running :
    ∃ (s t u : System Unit) (es : List (Event Unit)), s.life .wifi = .stopping ∧
      (featureMachine Unit .lp64 Tables.sample).Run s es t ∧
      next .lp64 Tables.sample t (.deinitWake .wifi) = some u ∧ u.life .wifi = .down := by
  have hexec : Machine.exec (next .lp64 Tables.sample) (System.zero Unit)
      [.init .wifi, .call () (.wifiGetRssi true), .operate (), .deinit .wifi] = some _ := rfl
  have hreach : (featureMachine Unit .lp64 Tables.sample).Reachable _ :=
    ⟨_, _, rfl, Machine.Run.of_exec hexec⟩
  obtain ⟨x, es, t, u, -, -, -, hrun, hwake, hdown⟩ := deinit_returns (f := .wifi) hreach rfl
  exact ⟨_, t, u, es, rfl, hrun, hwake, hdown⟩

end Features
end AppCore
