/-
  AppCore.Component.LinkOrder

  Whether the order of the descriptors in the link section matters.  The initialization
  pass picks the least id, but its scan marks components SKIPPED in section order and
  stops at the first required one.  `sys_component_start_all` is independent of the link
  order exactly when the slow pass is order-free.
-/

import AppCore.Component.Divergence
import AppCore.Component.Balance
import Mathlib.Data.List.GetD

namespace AppCore
namespace Component

/-- The same section bounds around the same descriptors in another order. -/
structure LinkSection.Permuted (sec sec' : LinkSection) : Prop where
  start : sec'.start = sec.start
  stop : sec'.stop = sec.stop
  descSize : sec'.descSize = sec.descSize
  entries : sec'.entries.Perm sec.entries

/-- `sys_component_start_all` on both sections, from the same static variables and with the
    same results of the callbacks: the same error code, the same calls, and the same final
    state and `last_error` of every component. -/
def SameOutcome (cb : Callbacks) (sec sec' : LinkSection) (g : Lifecycle) : Prop :=
  ∃ r s s', sysComponentStartAll cb sec { g with calls := [] } = some (r, s) ∧
    sysComponentStartAll cb sec' { g with calls := [] } = some (r, s') ∧ s'.calls = s.calls ∧
    ∀ c ∈ sec.table, (s'.runtime c.id).state = (s.runtime c.id).state ∧
      (s'.runtime c.id).lastError = (s.runtime c.id).lastError

section LinkOrder

variable {comps comps' : List ComponentDesc} {cb : Callbacks} {p p' : Progress}
  {done done' : StartRecord} {r r' : SysErr} {g : Lifecycle} {i : UInt32}

/-! ## The release loops leave other slots, and the table, alone -/

theorem stopLoop_runtime_of_not_mem {l : List ComponentDesc} (h : i ∉ ids l) (e : SysErr)
    (g : Lifecycle) : (stopLoop cb l e g).2.runtime i = g.runtime i := by
  induction l generalizing e g with
  | nil => rfl
  | cons c rest ih =>
      obtain ⟨hne, hrest⟩ : i ≠ c.id ∧ i ∉ ids rest := by simpa using h
      simp only [stopLoop]
      rw [ih hrest]
      unfold stopComponent
      by_cases hr : cb.stopResult c = .ok <;>
        simp [hr, hne, updateState, setStarted, Lifecycle.modify, Lifecycle.record]

theorem deinitializeLoop_runtime_of_not_mem {l : List ComponentDesc} (h : i ∉ ids l)
    (g : Lifecycle) : (deinitializeLoop l g).runtime i = g.runtime i := by
  induction l generalizing g with
  | nil => rfl
  | cons c rest ih =>
      obtain ⟨hne, hrest⟩ : i ≠ c.id ∧ i ∉ ids rest := by simpa using h
      simp only [deinitializeLoop]
      rw [ih hrest]
      unfold deinitializeComponent
      by_cases hin : (g.runtime c.id).initialized = true
      · simp only [hin, if_true]
        split <;> simp [hne, updateState, setInitialized, Lifecycle.modify, Lifecycle.record]
      · simp [hin]

theorem rollbackComponents_runtime_of_not_mem (hs : i ∉ ids g.startedOrder)
    (hi : i ∉ ids g.initializedOrder) :
    (rollbackComponents cb g).2.runtime i = g.runtime i := by
  obtain ⟨-, horder, -⟩ := stopLoop_spec cb g.startedOrder .ok g
  simp only [rollbackComponents, deinitializeComponents, stopStartedComponents]
  rw [deinitializeLoop_runtime_of_not_mem (by rw [horder]; exact hi),
    stopLoop_runtime_of_not_mem hs]

/-- The framework with another order of the table. -/
def Lifecycle.withTable (g : Lifecycle) (comps : List ComponentDesc) : Lifecycle :=
  { g with components := comps }

theorem stopComponent_withTable (c : ComponentDesc) (g : Lifecycle) :
    stopComponent cb c (g.withTable comps) =
      ((stopComponent cb c g).1, (stopComponent cb c g).2.withTable comps) := by
  unfold stopComponent
  by_cases hr : cb.stopResult c = .ok <;>
    simp [hr, Lifecycle.withTable, updateState, setStarted, Lifecycle.modify, Lifecycle.record]

theorem stopLoop_withTable (l : List ComponentDesc) (e : SysErr) (g : Lifecycle) :
    stopLoop cb l e (g.withTable comps) =
      ((stopLoop cb l e g).1, (stopLoop cb l e g).2.withTable comps) := by
  induction l generalizing e g with
  | nil => rfl
  | cons c rest ih =>
      simp only [stopLoop]
      have hpop : { g.withTable comps with startedOrder := rest } =
          Lifecycle.withTable { g with startedOrder := rest } comps := rfl
      rw [hpop, stopComponent_withTable]
      exact ih _ _

theorem deinitializeComponent_withTable (c : ComponentDesc) (g : Lifecycle) :
    deinitializeComponent c (g.withTable comps) =
      (deinitializeComponent c g).withTable comps := by
  unfold deinitializeComponent
  by_cases hin : (g.runtime c.id).initialized = true
  · have hin' : ((g.withTable comps).runtime c.id).initialized = true := hin
    rw [if_pos hin', if_pos hin]
    dsimp only
    split <;> split <;> first | rfl | contradiction
  · have hin' : ¬ ((g.withTable comps).runtime c.id).initialized = true := hin
    rw [if_neg hin', if_neg hin]

theorem deinitializeLoop_withTable (l : List ComponentDesc) (g : Lifecycle) :
    deinitializeLoop l (g.withTable comps) = (deinitializeLoop l g).withTable comps := by
  induction l generalizing g with
  | nil => rfl
  | cons c rest ih =>
      simp only [deinitializeLoop]
      have hpop : { g.withTable comps with initializedOrder := rest } =
          Lifecycle.withTable { g with initializedOrder := rest } comps := rfl
      rw [hpop, deinitializeComponent_withTable]
      exact ih _

theorem rollbackComponents_withTable (g : Lifecycle) :
    (rollbackComponents cb (g.withTable comps)).2 =
      (rollbackComponents cb g).2.withTable comps := by
  have hstop : stopLoop cb g.startedOrder .ok (g.withTable comps) = _ :=
    stopLoop_withTable g.startedOrder .ok g
  simp only [rollbackComponents, stopStartedComponents, deinitializeComponents]
  have hstarted : (g.withTable comps).startedOrder = g.startedOrder := rfl
  rw [hstarted, hstop]
  exact deinitializeLoop_withTable _ _

/-! ## The outcome is that of the initialization pass -/

/-- The state `sys_component_start_all` leaves. -/
def finalLifecycle (comps : List ComponentDesc) (cb : Callbacks) (r : SysErr) (p : Progress)
    (done : StartRecord) : Lifecycle :=
  if r = .ok then startLifecycle comps cb p done
  else (rollbackComponents cb (startLifecycle comps cb p done)).2

/-- The ids of the init calls. -/
def initIds (calls : List Call) : List UInt32 :=
  calls.filterMap fun
    | .init id _ => some id
    | _ => none

theorem initIds_append (a b : List Call) : initIds (a ++ b) = initIds a ++ initIds b := by
  simp [initIds]

theorem initIds_of_not_init (calls : List Call) (h : ∀ id ret, Call.init id ret ∉ calls) :
    initIds calls = [] := by
  unfold initIds
  rw [List.filterMap_eq_nil_iff]
  intro x hx
  cases x with
  | init id ret => exact absurd hx (h id ret)
  | start => rfl
  | stop => rfl
  | deinit => rfl

theorem initIds_called (called : List ComponentDesc) :
    initIds (called.map fun c => .init c.id (cb.init c.id)) = ids called := by
  induction called with
  | nil => rfl
  | cons c rest ih =>
      simp only [initIds, List.map_cons, List.filterMap_cons] at ih ⊢
      rw [ih]

theorem initIds_startLifecycle :
    initIds (startLifecycle comps cb p done).calls = ids p.called := by
  have hstart : initIds (done.flatMap (startCalls cb)) = [] := by
    refine initIds_of_not_init _ fun id ret hm => ?_
    obtain ⟨c, o, -, ⟨hx, -⟩ | ⟨hx, -⟩⟩ := mem_startCalls hm <;> cases hx
  show initIds (_ ++ _) = _
  rw [initIds_append, initIds_called, hstart, List.append_nil]

theorem initIds_finalLifecycle (hp : p.Inv comps cb) (r : SysErr) (done : StartRecord) :
    initIds (finalLifecycle comps cb r p done).calls = ids p.called := by
  unfold finalLifecycle
  split
  · exact initIds_startLifecycle
  · have hstop : initIds (done.started.reverse.map fun c => .stop c.id (cb.stopResult c)) = [] :=
      initIds_of_not_init _ (by simp)
    have hdeinit : ∀ l : List ComponentDesc, initIds (l.map fun c => .deinit c.id) = [] :=
      fun l => initIds_of_not_init _ (by simp)
    have hstart : initIds (startLifecycle comps cb p done).calls = ids p.called :=
      initIds_startLifecycle
    rw [rollbackComponents_startLifecycle_calls hp done, cycleCalls, initIds_append,
      initIds_append, hstop, hdeinit, List.append_nil, List.append_nil]
    exact hstart

/-- The passes after the initialization leave the slots of the components alone that are not
    initialized. -/
theorem finalLifecycle_runtime (hp : p.Inv comps cb) (h : StartAllRun comps cb r p done)
    (hi : i ∉ ids (initialized cb p.called)) :
    (finalLifecycle comps cb r p done).runtime i = p.runtime cb i := by
  have hfacts := h.facts hp
  have hdone : i ∉ done.ids := by
    intro hm
    obtain ⟨x, hx, rfl⟩ := List.mem_map.mp hm
    exact hi (mem_ids_of_mem (hfacts.done_initialized hx))
  have hstart : (startLifecycle comps cb p done).runtime i = p.runtime cb i :=
    startRuntime_of_not_mem hdone
  unfold finalLifecycle
  split
  · exact hstart
  · rw [rollbackComponents_runtime_of_not_mem, hstart]
    · intro hm
      obtain ⟨c, hc, rfl⟩ := List.mem_map.mp hm
      have hc' := StartRecord.mem_started.mp (List.mem_reverse.mp hc)
      exact hdone (List.mem_map.mpr ⟨_, hc', rfl⟩)
    · intro hm
      obtain ⟨c, hc, rfl⟩ := List.mem_map.mp hm
      exact hi (mem_ids_of_mem (List.mem_reverse.mp hc))

theorem eq_of_ids_eq {l l' : List ComponentDesc} (hnd : (ids comps).Nodup)
    (hl : ∀ c ∈ l, c ∈ comps) (hl' : ∀ c ∈ l', c ∈ comps) (h : ids l = ids l') : l = l' := by
  induction l generalizing l' with
  | nil =>
      cases l' with
      | nil => rfl
      | cons c rest => cases h
  | cons c rest ih =>
      cases l' with
      | nil => cases h
      | cons c' rest' =>
          obtain ⟨hid, hrest⟩ := List.cons.inj h
          rw [eq_of_id_eq hnd (hl c (List.mem_cons_self ..)) (hl' c' (List.mem_cons_self ..)) hid,
            ih (fun x hx => hl x (List.mem_cons_of_mem _ hx))
              (fun x hx => hl' x (List.mem_cons_of_mem _ hx)) hrest]

theorem Progress.runtime_state_eq_skipped_iff (cb : Callbacks) (p : Progress) (id : UInt32) :
    (p.runtime cb id).state = .skipped ↔ id ∈ ids p.skipped := by
  unfold Progress.runtime
  by_cases hs : id ∈ ids p.skipped
  · simp [hs]
  · by_cases hc : id ∈ ids p.called
    · by_cases hok : cb.init id = .ok <;> simp [hs, hc, hok]
    · simp [hs, hc]

/-- Runs with the same calls and the same final states come from initialization passes that
    end in the same way. -/
theorem StartAllRun.same_of_outcome (hnd : (ids comps).Nodup) (hperm : comps'.Perm comps)
    (hp : p.Inv comps cb) (hp' : p'.Inv comps' cb) (h : StartAllRun comps cb r p done)
    (h' : StartAllRun comps' cb r' p' done')
    (hcalls : (finalLifecycle comps' cb r' p' done').calls =
      (finalLifecycle comps cb r p done).calls)
    (hstate : ∀ c ∈ comps, ((finalLifecycle comps' cb r' p' done').runtime c.id).state =
      ((finalLifecycle comps cb r p done).runtime c.id).state) : p.Same p' := by
  have hcalled_ids : ids p'.called = ids p.called := by
    rw [← initIds_finalLifecycle hp' r' done', hcalls, initIds_finalLifecycle hp]
  have hcalled : p'.called = p.called :=
    eq_of_ids_eq hnd (fun c hc => hperm.mem_iff.mp (hp'.called_mem c hc)) hp.called_mem
      hcalled_ids
  refine ⟨hcalled, fun c => ?_⟩
  -- a skipped component is not initialized in either run
  have hskip : ∀ c ∈ comps, c.id ∉ ids p.called →
      (c.id ∈ ids p'.skipped ↔ c.id ∈ ids p.skipped) := by
    intro c hc hnot
    have hi : c.id ∉ ids (initialized cb p.called) := fun hm =>
      hnot (mem_ids_initialized.mp hm).1
    have heq := hstate c hc
    rw [finalLifecycle_runtime hp' h' (by rw [hcalled]; exact hi),
      finalLifecycle_runtime hp h hi] at heq
    rw [← p'.runtime_state_eq_skipped_iff cb, heq, p.runtime_state_eq_skipped_iff]
  constructor
  · intro hc
    have hmem : c ∈ comps := hperm.mem_iff.mp (hp'.skipped_mem c hc)
    have hnot : c.id ∉ ids p.called := by
      rw [← hcalled]
      exact fun hm => hp'.disjoint _ hm (mem_ids_of_mem hc)
    exact hp.skipped_of_id hnd hmem ((hskip c hmem hnot).mp (mem_ids_of_mem hc))
  · intro hc
    have hmem : c ∈ comps := hp.skipped_mem c hc
    have hnot : c.id ∉ ids p.called := fun hm => hp.disjoint _ hm (mem_ids_of_mem hc)
    exact hp'.skipped_of_id (ids_nodup_of_perm hperm hnd) (hperm.mem_iff.mpr hmem)
      ((hskip c hmem hnot).mpr (mem_ids_of_mem hc))

theorem StartRun.deterministic {order : List ComponentDesc} {d d₁ d₂ : StartRecord}
    (h : StartRun cb d order r d₁) (h' : StartRun cb d order r' d₂) : r' = r ∧ d₂ = d₁ := by
  induction h with
  | nil =>
      cases h'
      exact ⟨rfl, rfl⟩
  | halt hstop =>
      cases h' with
      | halt => exact ⟨rfl, rfl⟩
      | next hgo => exact absurd hstop hgo
  | next hgo _ ih =>
      cases h' with
      | halt hstop => exact absurd hstop hgo
      | next _ h' => exact ih h'

/-- The initialization pass of a run. -/
theorem StartAllRun.pass (h : StartAllRun comps cb r p done) :
    ∃ r₀, PassRun comps cb (List.range phaseCount) {} r₀ p := by
  cases h with
  | initError hpass _ => exact ⟨r, hpass⟩
  | started hpass _ => exact ⟨.ok, hpass⟩

/-- Initialization passes that end in the same way lead to the same outcome. -/
theorem StartAllRun.outcome_of_same
    (hsame : ∀ r₀ r₀', PassRun comps cb (List.range phaseCount) {} r₀ p →
      PassRun comps' cb (List.range phaseCount) {} r₀' p' → r₀' = r₀ ∧ p.Same p')
    (h : StartAllRun comps cb r p done) (h' : StartAllRun comps' cb r' p' done') :
    r' = r ∧ finalLifecycle comps' cb r' p' done' =
      (finalLifecycle comps cb r p done).withTable comps' := by
  have hfinal : p.Same p' → r' = r → done' = done → r' = r ∧
      finalLifecycle comps' cb r' p' done' =
        (finalLifecycle comps cb r p done).withTable comps' := by
    rintro hs rfl rfl
    have hstart : startLifecycle comps' cb p' done' =
        (startLifecycle comps cb p done').withTable comps' := by
      have hrt : startRuntime cb p' done' = startRuntime cb p done' := by
        funext id
        unfold startRuntime
        split
        · exact hs.runtime_eq id
        · rfl
      simp only [startLifecycle, Lifecycle.withTable, hrt, hs.called]
    refine ⟨rfl, ?_⟩
    unfold finalLifecycle
    rw [hstart]
    split
    · rfl
    · exact rollbackComponents_withTable _
  cases h with
  | initError hpass hne =>
      cases h' with
      | initError hpass' _ =>
          obtain ⟨hr, hs⟩ := hsame _ _ hpass hpass'
          exact hfinal hs hr rfl
      | started hpass' _ =>
          obtain ⟨hr, -⟩ := hsame _ _ hpass hpass'
          exact absurd hr.symm hne
  | started hpass hrun =>
      cases h' with
      | initError hpass' hne =>
          obtain ⟨hr, -⟩ := hsame _ _ hpass hpass'
          exact absurd hr hne
      | started hpass' hrun' =>
          obtain ⟨-, hs⟩ := hsame _ _ hpass hpass'
          rw [hs.called] at hrun'
          obtain ⟨hr, hdone⟩ := hrun.deterministic hrun'
          exact hfinal hs hr hdone

end LinkOrder

/-! ## Permuted sections -/

section Permuted

variable {sec sec' : LinkSection} {g : Lifecycle}

theorem LinkSection.Permuted.table_perm (h : sec.Permuted sec') : sec'.table.Perm sec.table :=
  h.entries.filter _

theorem validateComponents_of_perm {l l' : List ComponentDesc} (hl : l'.Perm l)
    (h : validateComponents l = .ok) : validateComponents l' = .ok := by
  obtain ⟨hnd, hfields, hdeps⟩ := (validateFrom_eq_ok_iff l l).mp h
  refine (validateFrom_eq_ok_iff l' l').mpr
    ⟨ids_nodup_of_perm hl hnd, fun c hc => hfields c (hl.mem_iff.mp hc), fun c hc d hd => ?_⟩
  obtain ⟨e, he, hle⟩ := hdeps c (hl.mem_iff.mp hc) d hd
  obtain ⟨hmem, hid⟩ := findComponent_eq_some he
  have hfind := findComponent_of_mem (ids_nodup_of_perm hl hnd) (hl.mem_iff.mpr hmem)
  rw [hid] at hfind
  exact ⟨e, hfind, hle⟩

/-- A permuted section is accepted as well. -/
theorem LinkSection.Permuted.accepted (hperm : sec.Permuted sec')
    (h : (collectComponents sec g).1 = .ok) : (collectComponents sec' g).1 = .ok := by
  have hcount : sec'.count = sec.count := by
    rw [LinkSection.count, LinkSection.count, hperm.start, hperm.stop, hperm.descSize]
  unfold collectComponents at h ⊢
  rw [hperm.start, hperm.stop, hperm.descSize, hcount]
  split at h
  · cases h
  · rename_i h1
    rw [if_neg h1]
    split at h
    · cases h
    · rename_i h2
      rw [if_neg h2]
      exact validateComponents_of_perm (hperm.entries.filter _) h

/-- Every order of the table is the table of a permuted section. -/
theorem LinkSection.exists_permuted (sec : LinkSection) {l : List ComponentDesc}
    (hl : l.Perm sec.table) : ∃ sec', sec.Permuted sec' ∧ sec'.table = l := by
  have hinit : ∀ c ∈ l, c.hasInit = true := by
    intro c hc
    simpa using (List.mem_filter.mp (hl.mem_iff.mp hc)).2
  let others := sec.entries.filter fun desc => !desc.hasInit
  have hperm : (l ++ others).Perm sec.entries :=
    (hl.append_right others).trans (List.filter_append_perm _ _)
  have hlen : (l ++ others).length = sec.count := by
    rw [hperm.length_eq]
    simp [LinkSection.entries]
  let sec' : LinkSection :=
    { sec with entry := fun i => (l ++ others).getD i componentSentinel }
  have hentries : sec'.entries = l ++ others := by
    apply List.ext_getElem
    · rw [hlen]
      simp [LinkSection.entries, LinkSection.count, sec']
    · intro i h1 h2
      simp only [LinkSection.entries, List.getElem_map, List.getElem_range, sec']
      rw [List.getD_eq_getElem _ _ h2]
  refine ⟨sec', ⟨rfl, rfl, rfl, hentries ▸ hperm⟩, ?_⟩
  unfold LinkSection.table
  rw [hentries, List.filter_append, List.filter_eq_self.mpr hinit]
  have hnone : others.filter (fun desc => desc.hasInit) = [] := by
    rw [List.filter_eq_nil_iff]
    intro c hc
    simpa using (List.mem_filter.mp hc).2
  rw [hnone, List.append_nil]

end Permuted

/-- The link order does not matter exactly when every round of the slow pass is
    order-free. -/
theorem startAll_linkOrder_iff (cb : Callbacks) (sec : LinkSection) (g : Lifecycle)
    (h : (collectComponents sec g).1 = .ok) :
    (∀ sec', sec.Permuted sec' → SameOutcome cb sec sec' g) ↔ OrderFree sec.table cb := by
  obtain ⟨hacc, -⟩ := collectComponents_ok cb h
  -- the run on a permuted section, by its passes
  have hspec : ∀ sec', sec.Permuted sec' → ∃ r p done, StartAllRun sec'.table cb r p done ∧
      p.Inv sec'.table cb ∧ sysComponentStartAll cb sec' { g with calls := [] } =
        some (r, finalLifecycle sec'.table cb r p done) := by
    intro sec' hperm
    refine sysComponentStartAll_spec cb ?_ rfl
    rw [collectComponents_fst sec' _ g]
    exact hperm.accepted h
  have hself : sec.Permuted sec := ⟨rfl, rfl, rfl, List.Perm.refl _⟩
  obtain ⟨r, p, done, hrun, hp, heq⟩ := hspec sec hself
  constructor
  · intro hall
    -- each section leads to the same end of the initialization pass
    have hsame : ∀ l r' e, l.Perm sec.table → PassRun l cb (List.range phaseCount) {} r' e →
        p.Same e := by
      intro l r' e hl hpass
      obtain ⟨sec', hperm, rfl⟩ := sec.exists_permuted hl
      obtain ⟨r₁, p₁, done₁, hrun₁, hp₁, heq₁⟩ := hspec sec' hperm
      obtain ⟨r₂, s, s', hs, hs', hcalls, hstate⟩ := hall sec' hperm
      rw [heq] at hs
      rw [heq₁] at hs'
      cases hs
      cases hs'
      have hend := hrun.same_of_outcome hacc.nodup hl hp hp₁ hrun₁ hcalls
        fun c hc => (hstate c hc).1
      -- the pass of the section is the given one
      obtain ⟨r₀, hpass₁⟩ := hrun₁.pass
      obtain ⟨-, rfl⟩ := hpass₁.deterministic (hacc.of_perm hl) Progress.inv_empty hpass
      exact hend
    refine PassesAgree.orderFree hacc fun l l' r r' e e' hl hl' hpass hpass' => ?_
    exact (hsame l r e hl hpass).symm.trans (hsame l' r' e' hl' hpass')
  · intro hfree sec' hperm
    obtain ⟨r₁, p₁, done₁, hrun₁, hp₁, heq₁⟩ := hspec sec' hperm
    obtain ⟨rfl, hfinal⟩ := hrun.outcome_of_same
      (fun _ _ hpass hpass' => hfree.passes_agree hacc (List.Perm.refl _) hperm.table_perm
        hpass hpass') hrun₁
    refine ⟨r₁, _, _, heq, heq₁, ?_, fun c _ => ?_⟩
    · rw [hfinal]
      rfl
    · rw [hfinal]
      exact ⟨rfl, rfl⟩

theorem startAll_linkOrder_iff_failing :
    (∀ sec', (LinkSection.ofList [.core 1 policyOptional [], .core 2 policyRequired [1],
        .core 3 policyOptional [1]]).Permuted sec' →
      SameOutcome (Callbacks.failing [1] []) (.ofList [.core 1 policyOptional [],
        .core 2 policyRequired [1], .core 3 policyOptional [1]]) sec' .zero) ↔
      OrderFree (LinkSection.table (.ofList [.core 1 policyOptional [],
        .core 2 policyRequired [1], .core 3 policyOptional [1]]))
        (Callbacks.failing [1] []) :=
  startAll_linkOrder_iff _ _ _ (by decide)

/-- The init of `1` fails; the scan stops at the required `2`, and whether `3` is SKIPPED
    depends on which of them is linked first. -/
theorem startAll_depends_on_linkOrder :
    ∃ cb sec sec', (collectComponents sec .zero).1 = .ok ∧ sec.Permuted sec' ∧
      ¬ SameOutcome cb sec sec' .zero := by
  refine ⟨Callbacks.failing [1] [],
    .ofList [.core 1 policyOptional [], .core 2 policyRequired [1], .core 3 policyOptional [1]],
    .ofList [.core 1 policyOptional [], .core 3 policyOptional [1], .core 2 policyRequired [1]],
    by decide, ⟨rfl, rfl, rfl, by decide⟩, ?_⟩
  rintro ⟨r, s, s', hs, hs', -, hstate⟩
  have hfirst : (sysComponentStartAll (Callbacks.failing [1] [])
      (.ofList [.core 1 policyOptional [], .core 2 policyRequired [1],
        .core 3 policyOptional [1]]) { Lifecycle.zero with calls := [] }).map
      (fun x => (x.2.runtime 3).state) = some .discovered := by decide
  have hsecond : (sysComponentStartAll (Callbacks.failing [1] [])
      (.ofList [.core 1 policyOptional [], .core 3 policyOptional [1],
        .core 2 policyRequired [1]]) { Lifecycle.zero with calls := [] }).map
      (fun x => (x.2.runtime 3).state) = some .skipped := by decide
  rw [hs] at hfirst
  rw [hs'] at hsecond
  have hfirst : (s.runtime 3).state = .discovered := by simpa using hfirst
  have hsecond : (s'.runtime 3).state = .skipped := by simpa using hsecond
  obtain ⟨heq, -⟩ := hstate (.core 3 policyOptional [1]) (by decide)
  have heq : (s'.runtime 3).state = (s.runtime 3).state := heq
  rw [hfirst, hsecond] at heq
  cases heq

end Component
end AppCore
