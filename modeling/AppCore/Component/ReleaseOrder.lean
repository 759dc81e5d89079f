/-
  AppCore.Component.ReleaseOrder

  Whether a dependency outlives its dependents.  The final deinit loop releases
  in reverse order of initialization, so there it always does; but the start pass
  releases an optional component that does not run on the spot, while components
  that depend on it are still initialized.  The condition under which a cycle
  gets that far is stated on the table and the callback results alone.
-/

import AppCore.Component.Balance

namespace AppCore
namespace Component

/-! ## The order of initialization -/

section InitOrder

variable (comps : List ComponentDesc) (cb : Callbacks)

/-- The init calls up to the end of a phase, after those in `called`: always the
    component with the least id among those that are ready.  `n` bounds the number
    of calls. -/
def phaseOrder (phase : Nat) : Nat → List ComponentDesc → List ComponentDesc
  | 0, called => called
  | n + 1, called =>
    match nextInit comps cb phase called with
    | none => called
    | some c => phaseOrder phase n (called ++ [c])

/-- The init calls up to the end of the last phase. -/
def initOrder : List Nat → List ComponentDesc → List ComponentDesc
  | [], called => called
  | phase :: rest, called => initOrder rest (phaseOrder comps cb phase comps.length called)

/-- The order in which the start pass takes the components: the init calls that
    succeed. -/
def startOrder : List ComponentDesc :=
  initialized cb (initOrder comps cb (List.range phaseCount) [])

/-- The recursion decides about every component and lets every required one be
    initialized. -/
def InitCompletes : Prop :=
  (∀ c ∈ comps, Settled comps cb c.id) ∧
    ∀ c ∈ comps, c.policy = policyRequired → InitOk comps cb c.id

variable {comps cb}

/-- The number of components whose init has not been called. -/
def uncalled (comps called : List ComponentDesc) : Nat :=
  (comps.filter fun c => c.id ∉ ids called).length

theorem uncalled_append_lt {called : List ComponentDesc} {c : ComponentDesc} (hc : c ∈ comps)
    (hnew : c.id ∉ ids called) : uncalled comps (called ++ [c]) < uncalled comps called := by
  refine length_filter_lt (fun e he hm => he ?_) hc hnew (by simp)
  rw [ids, List.map_append]
  exact List.mem_append_left _ hm

theorem PhaseRun.called_eq_phaseOrder {phase : Nat} {p p' : Progress} {r : SysErr}
    (hacc : Accepted comps) (h : PhaseRun comps cb phase p r p') (hr : r = .ok)
    (hp : p.Inv comps cb) {n : Nat} (hn : uncalled comps p.called ≤ n) :
    p'.called = phaseOrder comps cb phase n p.called := by
  induction h generalizing n with
  | halt => cases hr
  | @done p hscan hno =>
      have hnone : nextInit comps cb phase p.called = none := by
        cases hcand : nextInit comps cb phase p.called with
        | none => rfl
        | some c =>
            obtain ⟨hc, hel, -⟩ := nextInit_eq_some hcand
            exact absurd (hel.pending hacc hp hc) (hno c hc hel.1)
      cases n with
      | zero => rfl
      | succ n => simp [phaseOrder, hnone]
  | stuck => cases hr
  | again hscan _ hnone _ ih =>
      have hcalled := hscan.called_eq
      have := ih hr (hscan.inv (fun _ h => h) hp) (n := n) (by rw [hcalled]; exact hn)
      rw [this, hcalled]
  | fail _ _ hne => exact absurd hr hne
  | @next p p' c r p'' hscan hcand _ _ ih =>
      have hcalled := hscan.called_eq
      have hp' := hscan.inv (fun _ h => h) hp
      obtain ⟨hc, hel, -⟩ := nextInit_eq_some hcand
      have hlt := uncalled_append_lt hc hel.2.1
      cases n with
      | zero => omega
      | succ n =>
          have hel' := hcalled ▸ hel
          rw [ih hr (hp'.call hc (hel'.pending hacc hp' hc) hel'.2.2)
            (n := n) (by rw [Progress.call_called, hcalled]; omega)]
          simp [phaseOrder, hcand, hcalled]

theorem PassRun.called_eq_initOrder {phases : List Nat} {p p' : Progress} {r : SysErr}
    (hacc : Accepted comps) (h : PassRun comps cb phases p r p') (hr : r = .ok)
    (hp : p.Inv comps cb) : p'.called = initOrder comps cb phases p.called := by
  induction h with
  | nil => rfl
  | error _ hne => exact absurd hr hne
  | next hrun _ ih =>
      rw [ih hr (hrun.inv hacc hp), initOrder,
        hrun.called_eq_phaseOrder hacc rfl hp (List.length_filter_le _ _)]

/-- When the initialization pass succeeds. -/
theorem PassRun.ok_iff {p : Progress} {r : SysErr} (hacc : Accepted comps)
    (h : PassRun comps cb (List.range phaseCount) {} r p) (hp : p.Inv comps cb) :
    r = .ok ↔ InitCompletes comps cb := by
  constructor
  · intro hr
    have hcases : ∀ c ∈ comps, c ∈ p.called ∨ c ∈ p.skipped := by
      intro c hc
      have hres := h.resolved hr c hc (List.mem_range.mpr (hacc.phase_lt c hc))
      rw [Progress.Pending, Classical.not_and_iff_not_or_not, not_not, not_not] at hres
      rcases hres with hm | hm
      · obtain ⟨e, he, hid⟩ := List.mem_map.mp hm
        obtain rfl := eq_of_id_eq hacc.nodup (hp.called_mem e he) hc hid
        exact Or.inl he
      · obtain ⟨e, he, hid⟩ := List.mem_map.mp hm
        obtain rfl := eq_of_id_eq hacc.nodup (hp.skipped_mem e he) hc hid
        exact Or.inr he
    have hup := h.requiredUp hr ⟨by simp, by simp⟩
    refine ⟨fun c hc => ?_, fun c hc hreq => ?_⟩
    · rcases hcases c hc with hm | hm
      · by_cases hok : cb.init c.id = .ok
        · exact Or.inl (hp.initOk ⟨mem_ids_of_mem hm, hok⟩)
        · exact Or.inr (hp.initDown_of_down (Or.inl ⟨mem_ids_of_mem hm, hok⟩))
      · exact Or.inr (hp.initDown_of_down (Or.inr (mem_ids_of_mem hm)))
    · rcases hcases c hc with hm | hm
      · exact hp.initOk ⟨mem_ids_of_mem hm, hup.1 c hm hreq⟩
      · exact absurd hreq (hup.2 c hm)
  · rintro ⟨hset, hreq⟩
    by_contra hne
    rcases h.obstacle hacc hne Progress.inv_empty (k := 0)
      (by rw [Nat.sub_zero, List.range_eq_range']) (fun c _ hlt => absurd hlt (by omega))
      with ⟨c, hc, hpol, hnot⟩ | ⟨c, hc, hns⟩
    · exact hnot (hreq c hc hpol)
    · exact hns (hset c hc)

/-- An init-ok component is initialized by a pass that succeeds. -/
theorem PassRun.mem_initialized {p : Progress} (hacc : Accepted comps)
    (h : PassRun comps cb (List.range phaseCount) {} .ok p) (hp : p.Inv comps cb)
    {c : ComponentDesc} (hc : c ∈ comps) (hi : InitOk comps cb c.id) :
    c ∈ initialized cb p.called := by
  have hres := h.resolved rfl c hc (List.mem_range.mpr (hacc.phase_lt c hc))
  have hns : c.id ∉ ids p.skipped := fun hs =>
    hp.not_initOk_of_down hacc.nodup (Or.inr hs) hi
  have hm : c.id ∈ ids p.called := by
    by_contra hm
    exact hres ⟨hm, hns⟩
  obtain ⟨e, he, hid⟩ := List.mem_map.mp hm
  obtain rfl := eq_of_id_eq hacc.nodup (hp.called_mem e he) hc hid
  exact AppCore.Component.mem_initialized.mpr ⟨he, ((initOk_iff hacc.nodup hc).mp hi).2⟩

end InitOrder

/-! ## Dependencies that outlive their dependents -/

/-- After these calls the component is initialized and not yet released. -/
def Live (calls : List Call) (id : UInt32) : Prop :=
  .init id .ok ∈ calls ∧ .deinit id ∉ calls

/-- At every point of the run the dependencies of a live component are live. -/
def DependencyOutlives (comps : List ComponentDesc) (calls : List Call) : Prop :=
  ∀ pre post, calls = pre ++ post → ∀ c ∈ comps, Live pre c.id →
    ∀ d ∈ c.dependencies, Live pre d

/-- The initialization completes, and in its order an optional component that does
    not run, but that an initialized component depends on, comes before every
    required component that does not run. -/
def EarlyRelease (comps : List ComponentDesc) (cb : Callbacks) : Prop :=
  InitCompletes comps cb ∧ ∃ pre d post, startOrder comps cb = pre ++ d :: post ∧
    d.policy ≠ policyRequired ∧ ¬ RunOk comps cb d.id ∧
    (∀ c ∈ pre, c.policy = policyRequired → RunOk comps cb c.id) ∧
    ∃ e ∈ comps, InitOk comps cb e.id ∧ d.id ∈ e.dependencies

section Outlives

variable {comps : List ComponentDesc} {cb : Callbacks} {p : Progress} {done : StartRecord}
  {id : UInt32} {c : ComponentDesc}

/-- The record begins with the init calls and the calls of the start pass. -/
theorem cycleCalls_passes (cb : Callbacks) (p : Progress) (done : StartRecord) :
    ∃ rest, cycleCalls cb p done =
      (p.called.map fun c => .init c.id (cb.init c.id)) ++
        (done.flatMap (startCalls cb) ++ rest) :=
  ⟨(done.started.reverse.map fun c => .stop c.id (cb.stopResult c)) ++
    ((initialized cb p.called).reverse.filter fun c =>
      (startRuntime cb p done c.id).initialized).map fun c => .deinit c.id,
    by simp only [cycleCalls, List.append_assoc]⟩

/-- A component that the start pass released while a dependent was initialized. -/
def ReleasedEarly (cb : Callbacks) (p : Progress) (done : StartRecord) : Prop :=
  ∃ c ∈ initialized cb p.called, ∃ d ∈ c.dependencies, d ∈ ids done.released

/-- The deinit of an early release precedes that of the dependent. -/
theorem not_outlives_of_releasedEarly (hp : p.Inv comps cb) (h : PassFacts cb p done)
    (hearly : ReleasedEarly cb p done) : ¬ DependencyOutlives comps (cycleCalls cb p done) := by
  obtain ⟨c, hc, d, hd, hrel⟩ := hearly
  obtain ⟨hcalled, hok⟩ := mem_initialized.mp hc
  obtain ⟨f, hf, rfl⟩ := List.mem_map.mp hrel
  obtain ⟨o, hfo, hne, hopt⟩ := StartRecord.mem_released.mp hf
  obtain ⟨pre, post, heq⟩ := List.append_of_mem hfo
  -- the run up to the end of the start of the released component
  let now := (p.called.map fun c => Call.init c.id (cb.init c.id)) ++
    (pre ++ [(f, o)]).flatMap (startCalls cb)
  intro hout
  have hsplit : ∃ later, cycleCalls cb p done = now ++ later := by
    obtain ⟨rest, hrest⟩ := cycleCalls_passes cb p done
    refine ⟨post.flatMap (startCalls cb) ++ rest, ?_⟩
    rw [hrest]
    simp [now, heq]
  obtain ⟨later, hlater⟩ := hsplit
  have hdeinit : .deinit f.id ∈ now := by
    refine List.mem_append_right _ (List.mem_flatMap.mpr ⟨(f, o), by simp, ?_⟩)
    cases o with
    | running => exact absurd rfl hne
    | startFailed => simp [startCalls, hopt]
    | startSkipped => simp [startCalls, hopt]
  have hlive : Live now c.id := by
    refine ⟨List.mem_append_left _ (List.mem_map.mpr ⟨c, hcalled, by rw [hok]⟩), fun hm => ?_⟩
    rcases List.mem_append.mp hm with hm | hm
    · simp at hm
    · obtain ⟨e, o', he, ⟨hx, -⟩ | ⟨hx, -⟩⟩ := mem_startCalls hm
      · cases hx
      · obtain ⟨rfl⟩ : c = e := by
          have hed : (e, o') ∈ done := by
            rw [heq]
            rcases List.mem_append.mp he with he | he
            · exact List.mem_append_left _ he
            · exact List.mem_append_right _ (by simp [List.mem_singleton.mp he])
          exact List.inj_on_of_nodup_map hp.initialized_nodup hc (h.done_initialized hed)
            (Call.deinit.inj hx)
        -- the dependent is not reached before its dependency
        have hnd := h.done_nodup
        rw [heq, StartRecord.ids, List.map_append, List.map_cons] at hnd
        rcases List.mem_append.mp he with he | he
        · obtain ⟨a, b, hab⟩ := List.append_of_mem he
          have hbefore := h.deps_before a c o' (b ++ (f, o) :: post)
            (by rw [heq, hab]; simp) _ hd
          refine (List.nodup_append.mp hnd).2.2 f.id ?_ f.id (by simp) rfl
          rw [hab, List.map_append]
          exact List.mem_append_left _ hbefore
        · obtain ⟨rfl, rfl⟩ := Prod.mk.inj (List.mem_singleton.mp he)
          have hbefore := h.deps_before pre c o' post heq _ hd
          exact (List.nodup_append.mp hnd).2.2 c.id hbefore c.id (by simp) rfl
  exact (hout now later hlater c (hp.called_mem c hcalled) hlive f.id hd).2 hdeinit

/-- The init of a dependency comes before the init of the dependent. -/
theorem init_dependency_before (done : StartRecord) (hp : p.Inv comps cb)
    (hc : c ∈ initialized cb p.called) {d : UInt32} (hd : d ∈ c.dependencies) :
    ∃ pre post, cycleCalls cb p done = pre ++ .init c.id .ok :: post ∧
      .init c.id .ok ∉ pre ∧ .init d .ok ∈ pre := by
  obtain ⟨hcalled, hok⟩ := mem_initialized.mp hc
  obtain ⟨a, b, hab⟩ := List.append_of_mem hcalled
  obtain ⟨hdm, hdok⟩ := hp.called_ready a c b hab d hd
  obtain ⟨e, he, rfl⟩ := List.mem_map.mp hdm
  obtain ⟨rest, hrest⟩ := cycleCalls_passes cb p done
  refine ⟨a.map fun c => Call.init c.id (cb.init c.id),
    (b.map fun c => Call.init c.id (cb.init c.id)) ++ (done.flatMap (startCalls cb) ++ rest),
    ?_, fun hm => ?_, ?_⟩
  · rw [hrest, hab]
    simp [hok]
  · obtain ⟨f, hf, hx⟩ := List.mem_map.mp hm
    have hnd := hp.called_nodup
    rw [hab, ids, List.map_append, List.map_cons] at hnd
    exact (List.nodup_append.mp hnd).2.2 f.id (mem_ids_of_mem hf) c.id (by simp)
      (Call.init.inj hx).1
  · exact List.mem_map.mpr ⟨e, he, by rw [hdok]⟩

/-- The deinit of a dependency that was not released early comes after the deinit of
    the dependent. -/
theorem deinit_dependency_after (hp : p.Inv comps cb) (h : PassFacts cb p done)
    (hc : c ∈ initialized cb p.called) {d : UInt32} (hd : d ∈ c.dependencies)
    (hnotrel : d ∉ ids done.released) :
    ∃ pre post, cycleCalls cb p done = pre ++ .deinit c.id :: post ∧ .deinit d ∉ pre := by
  have hinits : .deinit d ∉ p.called.map fun c => Call.init c.id (cb.init c.id) := by simp
  have hstarts : .deinit d ∉ done.flatMap (startCalls cb) := fun hm =>
    hnotrel (deinit_mem_startCalls hm)
  by_cases hrel : c.id ∈ ids done.released
  · -- the start pass itself releases the dependent
    have hm : .deinit c.id ∈ done.flatMap (startCalls cb) := by
      rw [← List.count_pos_iff, count_deinit_startCalls]
      exact List.count_pos_iff.mpr hrel
    obtain ⟨a, b, hab⟩ := List.append_of_mem hm
    obtain ⟨rest, hrest⟩ := cycleCalls_passes cb p done
    refine ⟨(p.called.map fun c => Call.init c.id (cb.init c.id)) ++ a, b ++ rest, ?_,
      fun hm => ?_⟩
    · rw [hrest, hab]
      simp
    · rcases List.mem_append.mp hm with hm | hm
      · exact hinits hm
      · exact hstarts (hab ▸ List.mem_append_left _ hm)
  · -- the final loop releases it before whatever was initialized earlier
    obtain ⟨u, v, huv⟩ := List.append_of_mem hc
    have hbefore := hp.initialized_ready huv d hd
    have hkeep := (startRuntime_initialized_iff h hc).mpr hrel
    refine ⟨(p.called.map fun c => Call.init c.id (cb.init c.id)) ++
      done.flatMap (startCalls cb) ++
      (done.started.reverse.map fun c => .stop c.id (cb.stopResult c)) ++
      (v.reverse.filter fun c => (startRuntime cb p done c.id).initialized).map
        (fun c => .deinit c.id),
      (u.reverse.filter fun c => (startRuntime cb p done c.id).initialized).map
        (fun c => .deinit c.id), ?_, fun hm => ?_⟩
    · simp only [cycleCalls, huv, List.reverse_append, List.reverse_cons, List.filter_append,
        List.map_append, List.append_assoc, List.filter_cons, hkeep, if_true, List.map_cons,
        List.cons_append, List.nil_append]
    · rcases List.mem_append.mp hm with hm | hm
      · rcases List.mem_append.mp hm with hm | hm
        · exact (List.mem_append.mp hm).elim hinits hstarts
        · simp at hm
      · obtain ⟨e, he, hx⟩ := List.mem_map.mp hm
        have hev : e ∈ v := List.mem_reverse.mp (List.mem_filter.mp he).1
        have hnd := hp.initialized_nodup
        rw [huv, ids, List.map_append, List.map_cons] at hnd
        refine (List.nodup_append.mp hnd).2.2 d hbefore d ?_ rfl
        rw [← Call.deinit.inj hx]
        exact List.mem_cons_of_mem _ (mem_ids_of_mem hev)

/-- A cycle without an early release keeps the order. -/
theorem outlives_of_not_releasedEarly (hacc : Accepted comps) (hp : p.Inv comps cb)
    (h : PassFacts cb p done) (hearly : ¬ ReleasedEarly cb p done) :
    DependencyOutlives comps (cycleCalls cb p done) := by
  intro pre post heq c hc ⟨hinit, hnodeinit⟩ d hd
  have hmem : c ∈ initialized cb p.called := by
    have hm : .init c.id .ok ∈ cycleCalls cb p done := heq ▸ List.mem_append_left _ hinit
    obtain ⟨hm, hok⟩ := init_mem_cycleCalls.mp hm
    obtain ⟨e, he, hid⟩ := List.mem_map.mp hm
    obtain rfl := eq_of_id_eq hacc.nodup (hp.called_mem e he) hc hid
    exact mem_initialized.mpr ⟨he, hok⟩
  have hnotrel : d ∉ ids done.released := fun hr => hearly ⟨c, hmem, d, hd, hr⟩
  constructor
  · obtain ⟨u, v, huv, hnew, hdu⟩ := init_dependency_before done hp hmem hd
    exact mem_of_mem_before (heq.symm.trans huv) hinit hnew hdu
  · obtain ⟨u, v, huv, hdu⟩ := deinit_dependency_after hp h hmem hd hnotrel
    obtain ⟨t, rfl, -⟩ := exists_append_of_not_mem (heq.symm.trans huv) hnodeinit
    exact fun hm => hdu (List.mem_append_left _ hm)

/-- Early releases are those of the condition on the table and the callbacks. -/
theorem StartAllRun.releasedEarly_iff {r : SysErr} (hacc : Accepted comps)
    (hp : p.Inv comps cb) (hrun : StartAllRun comps cb r p done) :
    ReleasedEarly cb p done ↔ EarlyRelease comps cb := by
  have h := hrun.facts hp
  cases hrun with
  | initError hpass hne =>
      have hnot : ¬ InitCompletes comps cb := fun hc => hne ((hpass.ok_iff hacc hp).mpr hc)
      constructor
      · rintro ⟨c, -, d, -, hrel⟩
        simp [StartRecord.released] at hrel
      · exact fun he => absurd he.1 hnot
  | started hpass hstart =>
      have hcompletes := (hpass.ok_iff hacc hp).mp rfl
      have horder : startOrder comps cb = initialized cb p.called := by
        rw [startOrder, hpass.called_eq_initOrder hacc rfl Progress.inv_empty]
      constructor
      · rintro ⟨e, he, x, hx, hrel⟩
        obtain ⟨he, heok⟩ := mem_initialized.mp he
        obtain ⟨d, hd, rfl⟩ := List.mem_map.mp hrel
        obtain ⟨o, hdo, hne, hopt⟩ := StartRecord.mem_released.mp hd
        obtain ⟨pre, post, heq⟩ := List.append_of_mem hdo
        obtain ⟨t, ht⟩ := h.done_prefix
        refine ⟨hcompletes, pre.map (·.1), d, post.map (·.1) ++ t, ?_, hopt, ?_, ?_, e,
          hp.called_mem e he, hp.initOk ⟨mem_ids_of_mem he, heok⟩, hx⟩
        · rw [horder, ← ht, heq]
          simp
        · intro hok
          exact hne (h.running_of_runOk hacc hp hok d o hdo rfl)
        · intro c hc hreq
          obtain ⟨⟨c, oc⟩, hco, rfl⟩ := List.mem_map.mp hc
          have hpass := hstart.passed (by simp) heq _ hco
          have hrunning : oc = .running := by
            by_contra hnr
            exact hpass ⟨hnr, hreq⟩
          subst hrunning
          refine h.runOk_of_started hp _ (mem_ids_of_mem (StartRecord.mem_started.mpr ?_))
          rw [heq]
          exact List.mem_append_left _ hco
      · rintro ⟨-, pre, d, post, heq, hopt, hnot, hreq, e, he, hei, hde⟩
        refine ⟨e, hpass.mem_initialized hacc hp he hei, d.id, hde, ?_⟩
        rw [horder] at heq
        -- the start pass reaches `d`
        have hreach : ∃ o, (d, o) ∈ done := by
          have hdi : d ∈ initialized cb p.called := by rw [heq]; simp
          by_contra hnd
          have hpre : done.map (·.1) <+: pre := by
            obtain ⟨t, ht⟩ := h.done_prefix
            rw [heq] at ht
            obtain ⟨u, hu, -⟩ := exists_append_of_not_mem ht (fun hm => by
              obtain ⟨⟨d, o⟩, hdo, rfl⟩ := List.mem_map.mp hm
              exact hnd ⟨o, hdo⟩)
            exact ⟨u, hu.symm⟩
          by_cases hr : r = .ok
          · obtain ⟨new, hnew, -, hall⟩ := hstart.taken
            rw [List.nil_append] at hnew
            subst hnew
            rw [← hall hr] at hdi
            obtain ⟨⟨d, o⟩, hdo, rfl⟩ := List.mem_map.mp hdi
            exact hnd ⟨o, hdo⟩
          · obtain ⟨u, c, hu, -, hstop⟩ := hstart.halted hr
            have hc : (c, startOutcome cb u c) ∈ done := by rw [hu]; simp
            have hcpre : c ∈ pre := hpre.subset (List.mem_map_of_mem hc)
            exact hstop.1
              (h.running_of_runOk hacc hp (hreq c hcpre hstop.2) c _ hc rfl)
        obtain ⟨o, hdo⟩ := hreach
        refine mem_ids_of_mem (StartRecord.mem_released.mpr ⟨o, hdo, ?_, hopt⟩)
        rintro rfl
        exact hnot (h.runOk_of_started hp _ (mem_ids_of_mem (StartRecord.mem_started.mpr hdo)))

end Outlives

/-- For every accepted section and all callback results a dependency outlives its
    dependents exactly when there is no early release. -/
theorem lifecycleRun_outlives_iff (cb : Callbacks) (sec : LinkSection) (g : Lifecycle)
    (h : (collectComponents sec g).1 = .ok) :
    ∃ r g₁ g₂, lifecycleRun cb sec g = some (r, g₁, g₂) ∧
      (DependencyOutlives sec.table g₂.calls ↔ ¬ EarlyRelease sec.table cb) := by
  obtain ⟨r, p, done, g₁, g₂, hrun, hp, heq, hcalls⟩ := lifecycleRun_spec cb h
  obtain ⟨hacc, -⟩ := collectComponents_ok cb h
  refine ⟨r, g₁, g₂, heq, ?_⟩
  rw [hcalls, ← hrun.releasedEarly_iff hacc hp]
  constructor
  · intro hout hearly
    exact not_outlives_of_releasedEarly hp (hrun.facts hp) hearly hout
  · exact outlives_of_not_releasedEarly hacc hp (hrun.facts hp)

/-- Two components that both run. -/
theorem lifecycleRun_outlives_iff_chain :
    ∃ r g₁ g₂, lifecycleRun (Callbacks.failing [] [])
        (.ofList [.core 1 policyRequired [], .core 2 policyRequired [1]]) .zero =
      some (r, g₁, g₂) ∧
      (DependencyOutlives
          (LinkSection.table (.ofList [.core 1 policyRequired [], .core 2 policyRequired [1]]))
          g₂.calls ↔
        ¬ EarlyRelease
          (LinkSection.table (.ofList [.core 1 policyRequired [], .core 2 policyRequired [1]]))
          (Callbacks.failing [] [])) :=
  lifecycleRun_outlives_iff _ _ _ (by decide)

/-- The start of `1` fails and it is released while `2` is still initialized. -/
theorem lifecycleRun_early_release :
    ∃ g₁ g₂, lifecycleRun (Callbacks.failing [] [1])
        (.ofList [.core 1 policyOptional [], .core 2 policyOptional [1]]) .zero =
      some (.ok, g₁, g₂) ∧
      ¬ DependencyOutlives
        (LinkSection.table (.ofList [.core 1 policyOptional [], .core 2 policyOptional [1]]))
        g₂.calls := by
  have hrun : (lifecycleRun (Callbacks.failing [] [1])
      (.ofList [.core 1 policyOptional [], .core 2 policyOptional [1]]) .zero).map
        (fun x => (x.1, x.2.2.calls)) =
      some (.ok, [.init 1 .ok, .init 2 .ok, .start 1 .generic, .deinit 1, .deinit 2]) := by
    decide
  obtain ⟨⟨r, g₁, g₂⟩, hsome, hx⟩ := Option.map_eq_some_iff.mp hrun
  obtain ⟨rfl, hcalls⟩ := Prod.mk.inj hx
  refine ⟨g₁, g₂, hsome, fun hout => ?_⟩
  have hlive := hout [.init 1 .ok, .init 2 .ok, .start 1 .generic, .deinit 1] [.deinit 2]
    hcalls (.core 2 policyOptional [1]) (by decide) (by simp [Live, ComponentDesc.core]) 1
    (by simp [ComponentDesc.core])
  exact hlive.2 (by simp)

end Component
end AppCore
