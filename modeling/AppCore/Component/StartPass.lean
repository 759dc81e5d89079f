/-
  AppCore.Component.StartPass

  The start pass and the release passes.  As in the initialization pass, every
  state of the start pass is a function of what was decided so far: one
  `StartOutcome` for each component taken from the initialization order.  The
  calls made by the stop and deinit loops are read off the state they start in,
  and `StartAllRun` puts the passes of `sys_component_start_all` together.
-/

import AppCore.Component.Rounds

namespace AppCore
namespace Component

/-- How `start_component` dealt with a component. -/
inductive StartOutcome where
  | running
  | startFailed
  | startSkipped
deriving DecidableEq, Repr

/-- The components the start pass has dealt with, oldest first. -/
abbrev StartRecord := List (ComponentDesc × StartOutcome)

namespace StartRecord

/-- The ids the start pass has dealt with. -/
abbrev ids (done : StartRecord) : List UInt32 := done.map (·.1.id)

/-- The components that are RUNNING, in the order of their start. -/
def started (done : StartRecord) : List ComponentDesc :=
  (done.filter fun x => x.2 = .running).map (·.1)

@[simp] theorem started_append (a b : StartRecord) :
    started (a ++ b) = started a ++ started b := by
  simp [started]

theorem mem_started {done : StartRecord} {c : ComponentDesc} :
    c ∈ done.started ↔ (c, StartOutcome.running) ∈ done := by
  simp only [started, List.mem_map, List.mem_filter, decide_eq_true_eq]
  constructor
  · rintro ⟨⟨e, o⟩, ⟨hm, ho⟩, rfl⟩
    simp only at ho
    subst ho
    exact hm
  · intro h
    exact ⟨_, ⟨h, rfl⟩, rfl⟩

end StartRecord

section StartPass

variable (comps : List ComponentDesc) (cb : Callbacks)

/-- What `start_component` does with `c` after the components in `done`. -/
def startOutcome (done : StartRecord) (c : ComponentDesc) : StartOutcome :=
  if ∀ d ∈ c.dependencies, d ∈ ids done.started then
    if cb.startResult c = .ok then .running else .startFailed
  else .startSkipped

/-- The error kept for a component that is not RUNNING. -/
def startError (c : ComponentDesc) : StartOutcome → SysErr
  | .running => .ok
  | .startFailed => cb.startResult c
  | .startSkipped => .dependency

/-- The start pass stops here. -/
def StopsPass (c : ComponentDesc) (o : StartOutcome) : Prop :=
  o ≠ .running ∧ c.policy = policyRequired

instance (c : ComponentDesc) (o : StartOutcome) : Decidable (StopsPass c o) :=
  inferInstanceAs (Decidable (_ ∧ _))

/-- The callbacks called by `start_component`. -/
def startCalls : ComponentDesc × StartOutcome → List Call
  | (c, .running) => [.start c.id (cb.startResult c)]
  | (c, .startFailed) =>
    .start c.id (cb.startResult c) ::
      if c.policy = policyRequired then [] else [.deinit c.id]
  | (c, .startSkipped) => if c.policy = policyRequired then [] else [.deinit c.id]

/-- The slot `start_component` leaves. -/
def startSlot : ComponentDesc × StartOutcome → ComponentRuntime
  | (_, .running) => { state := .running, initialized := true, started := true }
  | (c, .startFailed) =>
    { state := .failed, lastError := cb.startResult c
      initialized := c.policy = policyRequired }
  | (c, .startSkipped) =>
    { state := .skipped, lastError := .dependency
      initialized := c.policy = policyRequired }

/-- The slot of a component during the start pass. -/
def startRuntime (p : Progress) (done : StartRecord) (id : UInt32) : ComponentRuntime :=
  match done.find? fun x => x.1.id = id with
  | none => p.runtime cb id
  | some x => startSlot cb x

/-- The state of the framework during the start pass. -/
def startLifecycle (p : Progress) (done : StartRecord) : Lifecycle where
  components := comps
  runtime := startRuntime cb p done
  initializedOrder := (initialized cb p.called).reverse
  startedOrder := done.started.reverse
  calls := (p.called.map fun c => .init c.id (cb.init c.id)) ++ done.flatMap (startCalls cb)

/-- The start loop over the rest of the initialization order. -/
inductive StartRun : StartRecord → List ComponentDesc → SysErr → StartRecord → Prop
  | nil (done : StartRecord) : StartRun done [] .ok done
  | halt {done c rest} : StopsPass c (startOutcome cb done c) →
      StartRun done (c :: rest) (startError cb c (startOutcome cb done c))
        (done ++ [(c, startOutcome cb done c)])
  | next {done c rest r done'} : ¬ StopsPass c (startOutcome cb done c) →
      StartRun (done ++ [(c, startOutcome cb done c)]) rest r done' →
      StartRun done (c :: rest) r done'

/-- The passes of `sys_component_start_all` after validation, up to its return
    or the rollback of an error exit. -/
inductive StartAllRun : SysErr → Progress → StartRecord → Prop
  | initError {r p} : PassRun comps cb (List.range phaseCount) {} r p → r ≠ .ok →
      StartAllRun r p []
  | started {p r done} : PassRun comps cb (List.range phaseCount) {} .ok p →
      StartRun cb [] (initialized cb p.called) r done → StartAllRun r p done

variable {comps cb}

theorem startLifecycle_nil (p : Progress) :
    startLifecycle comps cb p [] = p.lifecycle comps cb := by
  simp only [startLifecycle, Progress.lifecycle, List.flatMap_nil, List.append_nil]
  rfl

/-- The three ends of `start_component`, each with what leads to it. -/
inductive OutcomeCase (cb : Callbacks) (done : StartRecord) (c : ComponentDesc) :
    StartOutcome → Prop
  | running (hdeps : ∀ d ∈ c.dependencies, d ∈ ids done.started)
      (hstart : cb.startResult c = .ok) : OutcomeCase cb done c .running
  | startFailed (hdeps : ∀ d ∈ c.dependencies, d ∈ ids done.started)
      (hstart : cb.startResult c ≠ .ok) : OutcomeCase cb done c .startFailed
  | startSkipped {d : UInt32} (hd : d ∈ c.dependencies) (hdown : d ∉ ids done.started) :
      OutcomeCase cb done c .startSkipped

theorem startOutcome_cases {done : StartRecord} {c : ComponentDesc} {o : StartOutcome}
    (ho : o = startOutcome cb done c) : OutcomeCase cb done c o := by
  subst ho
  unfold startOutcome
  by_cases hdeps : ∀ d ∈ c.dependencies, d ∈ ids done.started
  · rw [if_pos hdeps]
    by_cases hstart : cb.startResult c = .ok
    · rw [if_pos hstart]
      exact .running hdeps hstart
    · rw [if_neg hstart]
      exact .startFailed hdeps hstart
  · rw [if_neg hdeps]
    push Not at hdeps
    obtain ⟨d, hd, hdown⟩ := hdeps
    exact .startSkipped hd hdown

theorem startError_ne_ok {done : StartRecord} {c : ComponentDesc}
    (h : startOutcome cb done c ≠ .running) : startError cb c (startOutcome cb done c) ≠ .ok := by
  generalize ho : startOutcome cb done c = o at h ⊢
  cases startOutcome_cases ho.symm with
  | running => exact absurd rfl h
  | startFailed _ hstart => exact hstart
  | startSkipped => exact SysErr.noConfusion

/-- The calls of the start pass are start and deinit calls of the components it
    dealt with. -/
theorem mem_startCalls {done : StartRecord} {x : Call} (h : x ∈ done.flatMap (startCalls cb)) :
    ∃ c o, (c, o) ∈ done ∧
      ((x = .start c.id (cb.startResult c) ∧ o ≠ .startSkipped) ∨
        (x = .deinit c.id ∧ o ≠ .running ∧ c.policy ≠ policyRequired)) := by
  obtain ⟨⟨c, o⟩, hm, hx⟩ := List.mem_flatMap.mp h
  refine ⟨c, o, hm, ?_⟩
  cases o with
  | running =>
      simp only [startCalls, List.mem_singleton] at hx
      exact Or.inl ⟨hx, by decide⟩
  | startFailed =>
      by_cases hreq : c.policy = policyRequired
      · simp only [startCalls, hreq, if_true, List.mem_singleton] at hx
        exact Or.inl ⟨hx, by decide⟩
      · simp only [startCalls, hreq, if_false, List.mem_cons, List.not_mem_nil, or_false] at hx
        rcases hx with hx | hx
        · exact Or.inl ⟨hx, by decide⟩
        · exact Or.inr ⟨hx, by decide, hreq⟩
  | startSkipped =>
      by_cases hreq : c.policy = policyRequired
      · simp [startCalls, hreq] at hx
      · simp only [startCalls, hreq, if_false, List.mem_singleton] at hx
        exact Or.inr ⟨hx, by decide, hreq⟩

/-! ## Slots during the start pass -/

section Slots

variable {p : Progress} {done : StartRecord} {c : ComponentDesc} {o : StartOutcome}

theorem startRuntime_of_not_mem {id : UInt32} (h : id ∉ done.ids) :
    startRuntime cb p done id = p.runtime cb id := by
  have : (done.find? fun x => x.1.id = id) = none := by
    rw [List.find?_eq_none]
    intro x hx hid
    exact h (List.mem_map.mpr ⟨x, hx, by simpa using hid⟩)
  simp [startRuntime, this]

theorem startRuntime_of_mem (hnd : done.ids.Nodup) (h : (c, o) ∈ done) :
    startRuntime cb p done c.id = startSlot cb (c, o) := by
  have hsome : (done.find? fun x => x.1.id = c.id) = some (c, o) := by
    cases hf : done.find? fun x => x.1.id = c.id with
    | none =>
        have := List.find?_eq_none.mp hf _ h
        simp at this
    | some x =>
        have hid : x.1.id = c.id := by simpa using List.find?_some hf
        have : x = (c, o) := List.inj_on_of_nodup_map hnd (List.mem_of_find?_eq_some hf) h hid
        rw [this]
  simp [startRuntime, hsome]

theorem startRuntime_append (h : c.id ∉ done.ids) (id : UInt32) :
    startRuntime cb p (done ++ [(c, o)]) id =
      if id = c.id then startSlot cb (c, o) else startRuntime cb p done id := by
  by_cases hid : id = c.id
  · subst hid
    have : (done.find? fun x => x.1.id = c.id) = none := by
      rw [List.find?_eq_none]
      intro x hx hxid
      exact h (List.mem_map.mpr ⟨x, hx, by simpa using hxid⟩)
    simp [startRuntime, List.find?_append, this]
  · have hlast : ([(c, o)].find? fun x => x.1.id = id) = none := by
      simp [Ne.symm hid]
    simp only [startRuntime, List.find?_append, hlast, Option.or_none, if_neg hid]

/-- Only components that were started are RUNNING. -/
theorem startRuntime_running_iff (hnd : done.ids.Nodup) (id : UInt32) :
    (startRuntime cb p done id).state = .running ↔ id ∈ ids done.started := by
  by_cases hm : id ∈ done.ids
  · obtain ⟨⟨c, o⟩, hc, rfl⟩ := List.mem_map.mp hm
    rw [startRuntime_of_mem hnd hc]
    constructor
    · intro hst
      have ho : o = .running := by
        cases o with
        | running => rfl
        | startFailed => simp [startSlot] at hst
        | startSkipped => simp [startSlot] at hst
      subst ho
      exact mem_ids_of_mem (StartRecord.mem_started.mpr hc)
    · intro hs
      obtain ⟨e, he, hid⟩ := List.mem_map.mp hs
      have he' := StartRecord.mem_started.mp he
      have : (e, StartOutcome.running) = (c, o) := List.inj_on_of_nodup_map hnd he' hc hid
      cases this
      rfl
  · rw [startRuntime_of_not_mem hm]
    constructor
    · intro hst
      exfalso
      revert hst
      unfold Progress.runtime
      split_ifs <;> simp
    · intro hs
      obtain ⟨e, he, hid⟩ := List.mem_map.mp hs
      exact absurd (List.mem_map.mpr ⟨_, StartRecord.mem_started.mp he, hid⟩) hm

/-- `check_dependencies` in the start pass. -/
theorem checkDependencyList_startLifecycle (hnd : done.ids.Nodup) {deps : List UInt32}
    (hk : ∀ d ∈ deps, d ∈ ids comps) :
    checkDependencyList (startLifecycle comps cb p done) true deps = .ready ↔
      ∀ d ∈ deps, d ∈ ids done.started := by
  induction deps with
  | nil => simp [checkDependencyList]
  | cons d rest ih =>
      obtain ⟨e, he⟩ : ∃ e, findComponent comps d = some e := by
        cases hf : findComponent comps d with
        | some e => exact ⟨e, rfl⟩
        | none =>
            obtain ⟨c, hc, hid⟩ := List.mem_map.mp (hk d (List.mem_cons_self ..))
            have := List.find?_eq_none.mp hf c hc
            simp [hid] at this
      have hid : e.id = d := (findComponent_eq_some he).2
      have ih := ih fun x hx => hk x (List.mem_cons_of_mem _ hx)
      have hrun : (startRuntime cb p done d).state = .running ↔ d ∈ ids done.started :=
        startRuntime_running_iff hnd d
      have hcomps : (startLifecycle comps cb p done).components = comps := rfl
      have hrt : (startLifecycle comps cb p done).runtime = startRuntime cb p done := rfl
      simp only [checkDependencyList, hcomps, he, hrt, hid]
      by_cases hm : d ∈ ids done.started
      · have hst := hrun.mpr hm
        rw [if_neg (by simp [hst]), if_neg (by simp [hst]), if_neg (by simp), ih]
        constructor
        · intro h x hx
          rcases List.mem_cons.mp hx with rfl | hx
          · exact hm
          · exact h x hx
        · exact fun h x hx => h x (List.mem_cons_of_mem _ hx)
      · have hst : (startRuntime cb p done d).state ≠ .running := fun h => hm (hrun.mp h)
        have hnot : ¬ ∀ x ∈ d :: rest, x ∈ ids done.started := fun h =>
          hm (h d (List.mem_cons_self ..))
        by_cases hf : (startRuntime cb p done d).state = .failed ∨
            (startRuntime cb p done d).state = .skipped
        · rw [if_pos hf]
          simp only [reduceCtorEq, false_iff]
          exact hnot
        · rw [if_neg hf, if_pos (by simp [hst])]
          simp only [reduceCtorEq, false_iff]
          exact hnot

end Slots

/-! ## One component -/

theorem startComponent_startLifecycle (hacc : Accepted comps) {p : Progress}
    {done : StartRecord} {c : ComponentDesc} (hp : p.Inv comps cb) (hc : c ∈ comps)
    (hnd : done.ids.Nodup) (hi : InitDone cb p.called c.id) (hnew : c.id ∉ done.ids) :
    startComponent cb c (startLifecycle comps cb p done) =
      (if StopsPass c (startOutcome cb done c) then startError cb c (startOutcome cb done c)
        else .ok,
        startLifecycle comps cb p (done ++ [(c, startOutcome cb done c)])) := by
  have hknown : ∀ d ∈ c.dependencies, d ∈ ids comps := by
    intro d hd
    obtain ⟨e, he, hid, -⟩ := hacc.known c hc d hd
    exact hid ▸ mem_ids_of_mem he
  have hslot : startRuntime cb p done c.id = { state := .initialized, initialized := true } := by
    rw [startRuntime_of_not_mem hnew]
    exact Progress.runtime_of_initDone hi (hp.disjoint _ hi.1)
  have hchk : checkDependencies (startLifecycle comps cb p done) c true = .ready ↔
      ∀ d ∈ c.dependencies, d ∈ ids done.started :=
    checkDependencyList_startLifecycle hnd hknown
  -- a state that differs from the old one in the slot of `c` only
  have hruntime : ∀ o slot, startSlot cb (c, o) = slot →
      Function.update (startRuntime cb p done) c.id slot =
        startRuntime cb p (done ++ [(c, o)]) := by
    intro o slot hs
    funext i
    rw [startRuntime_append hnew, ← hs]
    by_cases h : i = c.id
    · subst h; simp
    · simp [h]
  by_cases hdeps : ∀ d ∈ c.dependencies, d ∈ ids done.started
  · have hready := hchk.mpr hdeps
    by_cases hr : cb.startResult c = .ok
    · have ho : startOutcome cb done c = .running := by
        rw [startOutcome, if_pos hdeps, if_pos hr]
      simp only [startComponent, hready, ne_eq, not_true_eq_false, if_false, hr, ho, StopsPass,
        false_and]
      congr 1
      simp only [startLifecycle, updateState, setStarted, Lifecycle.modify, Lifecycle.record,
        Function.update_self, Function.update_idem, hslot, Lifecycle.mk.injEq, true_and]
      refine ⟨hruntime .running _ rfl, by simp [StartRecord.started], ?_⟩
      simp [startCalls, hr]
    · have ho : startOutcome cb done c = .startFailed := by
        rw [startOutcome, if_pos hdeps, if_neg hr]
      by_cases hreq : c.policy = policyRequired
      · simp only [startComponent, hready, ne_eq, not_true_eq_false, if_false, hr,
          not_false_eq_true, if_true, ho, StopsPass, hreq, and_self, reduceCtorEq, startError]
        congr 1
        simp only [startLifecycle, updateState, Lifecycle.modify, Lifecycle.record,
          Function.update_self, Function.update_idem, hslot, Lifecycle.mk.injEq, true_and]
        refine ⟨hruntime .startFailed _ (by simp [startSlot, hreq]),
          by simp [StartRecord.started], ?_⟩
        simp [startCalls, hreq]
      · simp only [startComponent, hready, ne_eq, not_true_eq_false, if_false, hr,
          not_false_eq_true, if_true, ho, StopsPass, hreq, and_false]
        congr 1
        simp only [startLifecycle, updateState, setInitialized, Lifecycle.modify,
          Lifecycle.record, Function.update_self, Function.update_idem, hslot,
          Lifecycle.mk.injEq, true_and]
        refine ⟨hruntime .startFailed _ (by simp [startSlot, hreq]),
          by simp [StartRecord.started], ?_⟩
        simp [startCalls, hreq]
  · have hnr : checkDependencies (startLifecycle comps cb p done) c true ≠ .ready := fun h =>
      hdeps (hchk.mp h)
    have ho : startOutcome cb done c = .startSkipped := by
      rw [startOutcome, if_neg hdeps]
    by_cases hreq : c.policy = policyRequired
    · simp only [startComponent, hnr, ne_eq, not_false_eq_true, if_true,
        handleDependencyFailure, hreq, ho, StopsPass, and_self, reduceCtorEq, false_and,
        if_false, startError]
      congr 1
      simp only [startLifecycle, updateState, Lifecycle.modify, hslot, Lifecycle.mk.injEq,
        true_and]
      refine ⟨hruntime .startSkipped _ (by simp [startSlot, hreq]),
        by simp [StartRecord.started], ?_⟩
      simp [startCalls, hreq]
    · simp only [startComponent, hnr, ne_eq, not_false_eq_true, if_true,
        handleDependencyFailure, hreq, ho, StopsPass, and_false, if_false]
      simp only [startLifecycle, updateState, setInitialized, Lifecycle.modify,
        Lifecycle.record, Function.update_self, Function.update_idem, hslot, and_self, if_true]
      congr 1
      simp only [Lifecycle.mk.injEq, true_and]
      refine ⟨hruntime .startSkipped _ (by simp [startSlot, hreq]),
        by simp [StartRecord.started], ?_⟩
      simp [startCalls, hreq]

/-! ## The start loop -/

section StartLoop

variable {p : Progress} {done done' : StartRecord} {order : List ComponentDesc} {r : SysErr}

theorem startComponents_startLifecycle (hacc : Accepted comps) (hp : p.Inv comps cb)
    (hi : ∀ c ∈ order, c ∈ comps ∧ InitDone cb p.called c.id)
    (hnd : (done.ids ++ ids order).Nodup) :
    ∃ r done', StartRun cb done order r done' ∧
      startComponents cb order (startLifecycle comps cb p done) =
        (r, startLifecycle comps cb p done') := by
  induction order generalizing done with
  | nil => exact ⟨.ok, done, StartRun.nil done, rfl⟩
  | cons c rest ih =>
      obtain ⟨hc, hci⟩ := hi c (List.mem_cons_self ..)
      obtain ⟨hnd1, -, hdisj⟩ := List.nodup_append.mp hnd
      have hnew : c.id ∉ done.ids := fun h =>
        hdisj _ h _ (mem_ids_of_mem (List.mem_cons_self ..)) rfl
      have hstep := startComponent_startLifecycle hacc hp hc hnd1 hci hnew
      by_cases hstop : StopsPass c (startOutcome cb done c)
      · have hne := startError_ne_ok hstop.1
        rw [if_pos hstop] at hstep
        exact ⟨_, _, StartRun.halt hstop, by simp [startComponents, hstep, hne]⟩
      · rw [if_neg hstop] at hstep
        have hnd' : (StartRecord.ids (done ++ [(c, startOutcome cb done c)]) ++
            ids rest).Nodup := by
          simpa using hnd
        obtain ⟨r, done', hrun, heq⟩ :=
          ih (fun e he => hi e (List.mem_cons_of_mem _ he)) hnd'
        exact ⟨r, done', StartRun.next hstop hrun, by simp [startComponents, hstep, heq]⟩

/-- The start loop takes the components in order, and takes all of them when it
    returns `SYS_OK`. -/
theorem StartRun.taken (h : StartRun cb done order r done') :
    ∃ new, done' = done ++ new ∧ new.map (·.1) <+: order ∧
      (r = .ok → new.map (·.1) = order) := by
  induction h with
  | nil done => exact ⟨[], by simp, by simp, fun _ => rfl⟩
  | @halt done c rest hstop =>
      refine ⟨[(c, startOutcome cb done c)], rfl, ⟨rest, rfl⟩, fun hr => ?_⟩
      exact absurd hr (startError_ne_ok hstop.1)
  | @next done c rest r done' hstop hrun ih =>
      obtain ⟨new, rfl, ⟨t, ht⟩, hall⟩ := ih
      refine ⟨(c, startOutcome cb done c) :: new, by simp, ⟨t, by simp [ht]⟩, fun hr => ?_⟩
      simp [hall hr]

/-- Each outcome is the one for the components dealt with before. -/
def OutcomesInOrder (cb : Callbacks) (done : StartRecord) : Prop :=
  ∀ pre c o post, done = pre ++ (c, o) :: post → o = startOutcome cb pre c

theorem OutcomesInOrder.snoc (h : OutcomesInOrder cb done) (c : ComponentDesc) :
    OutcomesInOrder cb (done ++ [(c, startOutcome cb done c)]) := by
  intro pre e o post heq
  rcases List.eq_nil_or_concat' post with rfl | ⟨post', last, rfl⟩
  · obtain ⟨rfl, hce⟩ := List.append_inj' heq rfl
    cases hce
    rfl
  · have : done ++ [(c, startOutcome cb done c)] = (pre ++ (e, o) :: post') ++ [last] := by
      simpa using heq
    exact h pre e o post' (List.append_inj' this rfl).1

theorem StartRun.outcomes (h : StartRun cb done order r done')
    (hd : OutcomesInOrder cb done) : OutcomesInOrder cb done' := by
  induction h with
  | nil => exact hd
  | halt => exact hd.snoc _
  | next _ _ ih => exact ih (hd.snoc _)

/-- When the start loop returns `SYS_OK`, every required component it has dealt
    with is RUNNING. -/
theorem StartRun.requiredRunning (h : StartRun cb done order r done') (hr : r = .ok)
    (hd : ∀ x ∈ done, ¬ StopsPass x.1 x.2) : ∀ x ∈ done', ¬ StopsPass x.1 x.2 := by
  induction h with
  | nil => exact hd
  | halt hstop => exact absurd hr (startError_ne_ok hstop.1)
  | next hstop _ ih =>
      refine ih hr fun x hx => ?_
      rcases List.mem_append.mp hx with hx | hx
      · exact hd x hx
      · rw [List.mem_singleton.mp hx]
        exact hstop

/-- The start loop goes on past every component but the last. -/
theorem StartRun.passed (h : StartRun cb done order r done')
    (hd : ∀ x ∈ done, ¬ StopsPass x.1 x.2) {pre post : StartRecord}
    {x : ComponentDesc × StartOutcome} (heq : done' = pre ++ x :: post) :
    ∀ y ∈ pre, ¬ StopsPass y.1 y.2 := by
  induction h with
  | nil done =>
      intro y hy
      exact hd y (by rw [heq]; exact List.mem_append_left _ hy)
  | @halt done c rest hstop =>
      intro y hy
      rcases List.eq_nil_or_concat' post with rfl | ⟨post', last, rfl⟩
      · obtain ⟨rfl, -⟩ := List.append_inj' heq rfl
        exact hd y hy
      · have : done ++ [(c, startOutcome cb done c)] = (pre ++ x :: post') ++ [last] := by
          simpa using heq
        have hdone := (List.append_inj' this rfl).1
        exact hd y (by rw [hdone]; exact List.mem_append_left _ hy)
  | next hstop _ ih =>
      refine ih (fun y hy => ?_) heq
      rcases List.mem_append.mp hy with hy | hy
      · exact hd y hy
      · rw [List.mem_singleton.mp hy]
        exact hstop

/-- When the start loop fails, it stops at a required component that is not
    RUNNING. -/
theorem StartRun.halted (h : StartRun cb done order r done') (hr : r ≠ .ok) :
    ∃ pre c, done' = pre ++ [(c, startOutcome cb pre c)] ∧ c ∈ order ∧
      StopsPass c (startOutcome cb pre c) := by
  induction h with
  | nil => exact absurd rfl hr
  | halt hstop => exact ⟨_, _, rfl, List.mem_cons_self .., hstop⟩
  | next _ _ ih =>
      obtain ⟨pre, c, heq, hc, hstop⟩ := ih hr
      exact ⟨pre, c, heq, List.mem_cons_of_mem _ hc, hstop⟩

end StartLoop

/-! ## The release loops -/

section Release

variable {g : Lifecycle} {l : List ComponentDesc} {e : SysErr}

theorem stopComponent_calls (c : ComponentDesc) (g : Lifecycle) :
    (stopComponent cb c g).2.calls = g.calls ++ [.stop c.id (cb.stopResult c)] := by
  unfold stopComponent
  by_cases h : cb.stopResult c = .ok <;>
    simp [h, updateState, setStarted, Lifecycle.modify, Lifecycle.record]

theorem stopComponent_initializedOrder (c : ComponentDesc) (g : Lifecycle) :
    (stopComponent cb c g).2.initializedOrder = g.initializedOrder := by
  unfold stopComponent
  by_cases h : cb.stopResult c = .ok <;>
    simp [h, updateState, setStarted, Lifecycle.modify, Lifecycle.record]

theorem stopComponent_initialized (c : ComponentDesc) (g : Lifecycle) (i : UInt32) :
    ((stopComponent cb c g).2.runtime i).initialized = (g.runtime i).initialized := by
  unfold stopComponent
  by_cases hi : i = c.id
  · subst hi
    by_cases h : cb.stopResult c = .ok <;>
      simp [h, updateState, setStarted, Lifecycle.modify, Lifecycle.record]
  · by_cases h : cb.stopResult c = .ok <;>
      simp [h, hi, updateState, setStarted, Lifecycle.modify, Lifecycle.record]

/-- The stop loop calls every stop on the stack, whatever each of them returns,
    and leaves the `initialized` flags and the initialization order alone. -/
theorem stopLoop_spec (cb : Callbacks) (l : List ComponentDesc) (e : SysErr) (g : Lifecycle) :
    (stopLoop cb l e g).2.calls = g.calls ++ l.map (fun c => .stop c.id (cb.stopResult c)) ∧
    (stopLoop cb l e g).2.initializedOrder = g.initializedOrder ∧
    ∀ i, ((stopLoop cb l e g).2.runtime i).initialized = (g.runtime i).initialized := by
  induction l generalizing e g with
  | nil => simp [stopLoop]
  | cons c rest ih =>
      simp only [stopLoop]
      obtain ⟨hcalls, horder, hinit⟩ := ih
        (if (stopComponent cb c { g with startedOrder := rest }).1 ≠ .ok ∧ e = .ok then
          (stopComponent cb c { g with startedOrder := rest }).1 else e)
        (stopComponent cb c { g with startedOrder := rest }).2
      refine ⟨?_, ?_, fun i => ?_⟩
      · rw [hcalls, stopComponent_calls]; simp
      · rw [horder, stopComponent_initializedOrder]
      · rw [hinit, stopComponent_initialized]

theorem deinitializeComponent_calls (c : ComponentDesc) (g : Lifecycle) :
    (deinitializeComponent c g).calls =
      g.calls ++ if (g.runtime c.id).initialized = true then [.deinit c.id] else [] := by
  unfold deinitializeComponent
  by_cases h : (g.runtime c.id).initialized = true
  · simp only [h, if_true]
    split <;> simp [updateState, setInitialized, Lifecycle.modify, Lifecycle.record]
  · simp [h]

theorem deinitializeComponent_initialized (c : ComponentDesc) (g : Lifecycle) {i : UInt32}
    (hi : i ≠ c.id) :
    ((deinitializeComponent c g).runtime i).initialized = (g.runtime i).initialized := by
  unfold deinitializeComponent
  by_cases h : (g.runtime c.id).initialized = true
  · simp only [h, if_true]
    split <;> simp [hi, updateState, setInitialized, Lifecycle.modify, Lifecycle.record]
  · simp [h]

/-- The deinit loop calls the deinit of every component on the stack that is
    still initialized. -/
theorem deinitializeLoop_calls (hnd : (ids l).Nodup) (g : Lifecycle) :
    (deinitializeLoop l g).calls =
      g.calls ++ (l.filter fun c => (g.runtime c.id).initialized).map fun c => .deinit c.id := by
  induction l generalizing g with
  | nil => simp [deinitializeLoop]
  | cons c rest ih =>
      obtain ⟨hc, hrest⟩ := List.nodup_cons.mp hnd
      have hsame : (rest.filter fun e => ((deinitializeComponent c
            { g with initializedOrder := rest }).runtime e.id).initialized) =
          rest.filter fun e => (g.runtime e.id).initialized := by
        apply List.filter_congr
        intro e he
        have hne : e.id ≠ c.id := fun h => hc (List.mem_map.mpr ⟨e, he, h⟩)
        rw [deinitializeComponent_initialized _ _ hne]
      simp only [deinitializeLoop]
      rw [ih hrest, hsame, deinitializeComponent_calls]
      by_cases h : (g.runtime c.id).initialized = true <;> simp [h]

/-- The calls of `rollback_components`. -/
theorem rollbackComponents_calls (hnd : (ids g.initializedOrder).Nodup) :
    (rollbackComponents cb g).2.calls =
      g.calls ++ (g.startedOrder.map fun c => .stop c.id (cb.stopResult c)) ++
        (g.initializedOrder.filter fun c => (g.runtime c.id).initialized).map
          fun c => .deinit c.id := by
  obtain ⟨hcalls, horder, hinit⟩ := stopLoop_spec cb g.startedOrder .ok g
  simp only [rollbackComponents, deinitializeComponents, stopStartedComponents]
  rw [deinitializeLoop_calls (by rw [horder]; exact hnd), hcalls, horder]
  simp only [hinit]

end Release

/-! ## The whole run -/

theorem initialized_sublist (called : List ComponentDesc) :
    (initialized cb called).Sublist called := List.filter_sublist

theorem mem_initialized {called : List ComponentDesc} {c : ComponentDesc} :
    c ∈ initialized cb called ↔ c ∈ called ∧ cb.init c.id = .ok := by
  simp [initialized]

theorem Progress.Inv.initialized_nodup {p : Progress} (h : p.Inv comps cb) :
    (ids (initialized cb p.called)).Nodup :=
  h.called_nodup.sublist ((initialized_sublist p.called).map _)

theorem mem_ids_initialized {called : List ComponentDesc} {id : UInt32} :
    id ∈ ids (initialized cb called) ↔ id ∈ ids called ∧ cb.init id = .ok := by
  constructor
  · intro h
    obtain ⟨c, hc, rfl⟩ := List.mem_map.mp h
    obtain ⟨hm, hok⟩ := mem_initialized.mp hc
    exact ⟨mem_ids_of_mem hm, hok⟩
  · rintro ⟨hm, hok⟩
    obtain ⟨c, hc, rfl⟩ := List.mem_map.mp hm
    exact mem_ids_of_mem (mem_initialized.mpr ⟨hc, hok⟩)

/-- The dependencies of an initialized component were initialized before it. -/
theorem Progress.Inv.initialized_ready {p : Progress} (h : p.Inv comps cb)
    {pre post : List ComponentDesc} {c : ComponentDesc}
    (heq : initialized cb p.called = pre ++ c :: post) : ∀ d ∈ c.dependencies, d ∈ ids pre := by
  obtain ⟨a, b, hcalled, ha, hb⟩ := List.filter_eq_append_iff.mp heq
  obtain ⟨b₁, b₂, rfl, hfail, -, -⟩ := List.filter_eq_cons_iff.mp hb
  intro d hd
  have hready := h.called_ready (a ++ b₁) c b₂ (by rw [hcalled]; simp) d hd
  obtain ⟨e, he, rfl⟩ := List.mem_map.mp hready.1
  rcases List.mem_append.mp he with he | he
  · refine mem_ids_of_mem ?_
    rw [← ha]
    exact List.mem_filter.mpr ⟨he, by simpa using hready.2⟩
  · exact absurd hready.2 (by simpa using hfail e he)

/-- What is known of the passes of `sys_component_start_all`, however they end. -/
structure PassFacts (cb : Callbacks) (p : Progress) (done : StartRecord) : Prop where
  called_nodup : (ids p.called).Nodup
  not_skipped : ∀ c ∈ initialized cb p.called, c.id ∉ ids p.skipped
  done_nodup : done.ids.Nodup
  done_prefix : done.map (·.1) <+: initialized cb p.called
  outcomes : OutcomesInOrder cb done
  /-- The start pass reaches a component after its dependencies. -/
  deps_before : ∀ pre c o post, done = pre ++ (c, o) :: post →
    ∀ d ∈ c.dependencies, d ∈ StartRecord.ids pre

theorem StartAllRun.facts {r : SysErr} {p : Progress} {done : StartRecord}
    (h : StartAllRun comps cb r p done) (hp : p.Inv comps cb) : PassFacts cb p done := by
  have hskip : ∀ c ∈ initialized cb p.called, c.id ∉ ids p.skipped := fun c hc =>
    hp.disjoint _ (mem_ids_of_mem (mem_initialized.mp hc).1)
  cases h with
  | initError _ _ =>
      exact ⟨hp.called_nodup, hskip, by simp, by simp, by simp [OutcomesInOrder], by simp⟩
  | started _ hrun =>
      obtain ⟨new, hnew, ⟨t, ht⟩, -⟩ := hrun.taken
      rw [List.nil_append] at hnew
      subst hnew
      refine ⟨hp.called_nodup, hskip, ?_, ⟨t, ht⟩, hrun.outcomes (by simp [OutcomesInOrder]), ?_⟩
      · have hnd := hp.initialized_nodup
        rw [← ht, ids, List.map_append] at hnd
        simpa [StartRecord.ids, Function.comp_def] using (List.nodup_append.mp hnd).1
      · intro pre c o post heq d hd
        have hsplit : initialized cb p.called = pre.map (·.1) ++ c :: (post.map (·.1) ++ t) := by
          rw [← ht, heq]
          simp
        simpa [ids, Function.comp_def] using hp.initialized_ready hsplit d hd

section Facts

variable {p : Progress} {done : StartRecord} {c : ComponentDesc} {o : StartOutcome}

theorem PassFacts.done_initialized (h : PassFacts cb p done) {x : ComponentDesc × StartOutcome}
    (hx : x ∈ done) : x.1 ∈ initialized cb p.called :=
  h.done_prefix.subset (List.mem_map_of_mem hx)

theorem PassFacts.eq_of_mem (h : PassFacts cb p done) {e : ComponentDesc} {o' : StartOutcome}
    (hc : (c, o) ∈ done) (he : (e, o') ∈ done) (hid : c.id = e.id) : c = e ∧ o = o' := by
  have : (c, o) = (e, o') := List.inj_on_of_nodup_map h.done_nodup hc he hid
  exact Prod.mk.inj this

/-- The outcomes can be read off the final record. -/
theorem PassFacts.outcome_eq (h : PassFacts cb p done) (hc : (c, o) ∈ done) :
    o = startOutcome cb done c := by
  obtain ⟨pre, post, heq⟩ := List.append_of_mem hc
  have hdeps : (∀ d ∈ c.dependencies, d ∈ ids (StartRecord.started pre)) ↔
      ∀ d ∈ c.dependencies, d ∈ ids done.started := by
    refine forall_congr' fun d => forall_congr' fun hd => ?_
    constructor
    · intro hm
      rw [heq, StartRecord.started_append, ids, List.map_append]
      exact List.mem_append_left _ hm
    · intro hm
      obtain ⟨e, he, rfl⟩ := List.mem_map.mp hm
      have he := StartRecord.mem_started.mp he
      obtain ⟨⟨f, o'⟩, hf, hfe⟩ := List.mem_map.mp (h.deps_before pre c o post heq _ hd)
      obtain ⟨rfl, rfl⟩ := h.eq_of_mem (heq ▸ List.mem_append_left _ hf) he hfe
      exact mem_ids_of_mem (StartRecord.mem_started.mpr hf)
  have ho := h.outcomes pre c o post heq
  unfold startOutcome at ho ⊢
  simpa only [hdeps] using ho

/-- What led to the outcome can be read off the final record as well. -/
theorem PassFacts.cases (h : PassFacts cb p done) (hc : (c, o) ∈ done) :
    OutcomeCase cb done c o :=
  startOutcome_cases (h.outcome_eq hc)

theorem PassFacts.running_iff (h : PassFacts cb p done) (hc : (c, o) ∈ done) :
    o = .running ↔
      (∀ d ∈ c.dependencies, d ∈ ids done.started) ∧ cb.startResult c = .ok := by
  cases h.cases hc with
  | running hdeps hstart => exact ⟨fun _ => ⟨hdeps, hstart⟩, fun _ => rfl⟩
  | startFailed _ hstart => exact ⟨StartOutcome.noConfusion, fun hrun => absurd hrun.2 hstart⟩
  | startSkipped hd hdown =>
      exact ⟨StartOutcome.noConfusion, fun hrun => absurd (hrun.1 _ hd) hdown⟩

/-- What the start pass started is RUNNING by the recursion. -/
theorem PassFacts.runOk_of_started (h : PassFacts cb p done) (hp : p.Inv comps cb) :
    ∀ i ∈ ids done.started, RunOk comps cb i := by
  have hpre : ∀ pre post : StartRecord, done = pre ++ post →
      ∀ i ∈ ids pre.started, RunOk comps cb i := by
    intro pre
    induction pre using List.reverseRecOn with
    | nil => simp [StartRecord.started]
    | append_singleton pre x ih =>
        intro post heq i hi
        obtain ⟨c, o⟩ := x
        have heq' : done = pre ++ (c, o) :: post := by simpa using heq
        rw [StartRecord.started_append, ids, List.map_append] at hi
        rcases List.mem_append.mp hi with hi | hi
        · exact ih _ heq' i hi
        · obtain ⟨e, he, rfl⟩ := List.mem_map.mp hi
          have he := StartRecord.mem_started.mp he
          obtain ⟨rfl, rfl⟩ := Prod.mk.inj (List.mem_singleton.mp he)
          have hmem : (e, StartOutcome.running) ∈ done := by rw [heq']; simp
          obtain ⟨hcalled, hok⟩ := mem_initialized.mp (h.done_initialized hmem)
          cases startOutcome_cases (h.outcomes pre e .running post heq') with
          | running hdeps hstart =>
              exact RunOk.intro (hp.called_mem e hcalled)
                (hp.initOk ⟨mem_ids_of_mem hcalled, hok⟩)
                (fun d hd => ih _ heq' d (hdeps d hd)) hstart
  exact hpre done [] (by simp)

/-- A component that is RUNNING by the recursion is started when it is reached. -/
theorem PassFacts.running_of_runOk (h : PassFacts cb p done) (hacc : Accepted comps)
    (hp : p.Inv comps cb) {i : UInt32} (hi : RunOk comps cb i) :
    ∀ c o, (c, o) ∈ done → c.id = i → o = .running := by
  induction hi with
  | @intro e he _ _ hstart ih =>
      intro c o hc hid
      have hmem : c ∈ comps := hp.called_mem c (mem_initialized.mp (h.done_initialized hc)).1
      obtain rfl := eq_of_id_eq hacc.nodup hmem he hid
      refine (h.running_iff hc).mpr ⟨fun d hd => ?_, hstart⟩
      obtain ⟨pre, post, heq⟩ := List.append_of_mem hc
      obtain ⟨⟨f, o'⟩, hf, rfl⟩ := List.mem_map.mp (h.deps_before pre c o post heq d hd)
      have hf' : (f, o') ∈ done := heq ▸ List.mem_append_left _ hf
      obtain rfl := ih _ hd f o' hf' rfl
      exact mem_ids_of_mem (StartRecord.mem_started.mpr hf')

end Facts

/-- The descriptors `collect_components` puts into the table. -/
def LinkSection.table (sec : LinkSection) : List ComponentDesc :=
  sec.entries.filter fun desc => desc.hasInit

theorem collectComponents_ok (cb : Callbacks) {sec : LinkSection} {g : Lifecycle}
    (h : (collectComponents sec g).1 = .ok) :
    Accepted sec.table ∧
      (collectComponents sec g).2 =
        { (({} : Progress).lifecycle sec.table cb) with calls := g.calls } := by
  unfold collectComponents at h ⊢
  by_cases h1 : sec.stop < sec.start ∨ (sec.stop - sec.start) % sec.descSize ≠ 0
  · rw [if_pos h1] at h; cases h
  · rw [if_neg h1] at h ⊢
    by_cases h2 : sec.count > componentMaxCount
    · rw [if_pos h2] at h; cases h
    · rw [if_neg h2] at h ⊢
      exact ⟨accepted_of_validateComponents h, rfl⟩

/-- Whether the section is accepted does not depend on the old state. -/
theorem collectComponents_fst (sec : LinkSection) (g g' : Lifecycle) :
    (collectComponents sec g).1 = (collectComponents sec g').1 := by
  unfold collectComponents
  split_ifs <;> rfl

/-- The calls of a whole cycle: init calls, start calls, then the stops and the
    deinits of what is left, both in reverse order. -/
def cycleCalls (cb : Callbacks) (p : Progress) (done : StartRecord) : List Call :=
  (p.called.map fun c => .init c.id (cb.init c.id)) ++ done.flatMap (startCalls cb) ++
    (done.started.reverse.map fun c => .stop c.id (cb.stopResult c)) ++
    ((initialized cb p.called).reverse.filter fun c =>
      (startRuntime cb p done c.id).initialized).map fun c => .deinit c.id

theorem rollbackComponents_startLifecycle_calls {p : Progress} (hp : p.Inv comps cb)
    (done : StartRecord) :
    (rollbackComponents cb (startLifecycle comps cb p done)).2.calls =
      cycleCalls cb p done := by
  rw [rollbackComponents_calls]
  · rfl
  · have := hp.initialized_nodup
    simpa [startLifecycle] using this

/-- `sys_component_start_all` on an accepted section: it returns, and its passes
    are those of `StartAllRun`. -/
theorem sysComponentStartAll_spec (cb : Callbacks) {sec : LinkSection} {g : Lifecycle}
    (h : (collectComponents sec g).1 = .ok) (hg : g.calls = []) :
    ∃ r p done, StartAllRun sec.table cb r p done ∧ p.Inv sec.table cb ∧
      sysComponentStartAll cb sec g =
        some (r, if r = .ok then startLifecycle sec.table cb p done
          else (rollbackComponents cb (startLifecycle sec.table cb p done)).2) := by
  obtain ⟨hacc, hcollect⟩ := collectComponents_ok cb h
  have hstart : (collectComponents sec g).2 =
      ({} : Progress).lifecycle sec.table cb := by
    rw [hcollect, hg]
    rfl
  have hempty : ({} : Progress).Inv sec.table cb := Progress.inv_empty
  obtain ⟨r, p, hpass, hp, heq⟩ :=
    initializePhases_lifecycle hacc hempty (List.range phaseCount)
  by_cases hr : r = .ok
  · subst hr
    have hi : ∀ c ∈ initialized cb p.called, c ∈ sec.table ∧ InitDone cb p.called c.id := by
      intro c hc
      obtain ⟨hc, hok⟩ := mem_initialized.mp hc
      exact ⟨hp.called_mem c hc, mem_ids_of_mem hc, hok⟩
    have hnd : (StartRecord.ids [] ++ ids (initialized cb p.called)).Nodup :=
      hp.initialized_nodup
    obtain ⟨r', done, hrun, hloop⟩ := startComponents_startLifecycle hacc hp hi hnd
    rw [startLifecycle_nil] at hloop
    refine ⟨r', p, done, StartAllRun.started hpass hrun, hp, ?_⟩
    have horder : (p.lifecycle sec.table cb).initializedOrder.reverse =
        initialized cb p.called := List.reverse_reverse _
    by_cases hr' : r' = .ok <;>
      simp [sysComponentStartAll, h, hstart, heq, horder, hloop, hr']
  · refine ⟨r, p, [], StartAllRun.initError hpass hr, hp, ?_⟩
    rw [startLifecycle_nil]
    simp [sysComponentStartAll, h, hstart, heq, hr]

/-- A whole cycle on an accepted section: its calls are `cycleCalls`. -/
theorem lifecycleRun_spec (cb : Callbacks) {sec : LinkSection} {g : Lifecycle}
    (h : (collectComponents sec g).1 = .ok) :
    ∃ r p done g₁ g₂, StartAllRun sec.table cb r p done ∧ p.Inv sec.table cb ∧
      lifecycleRun cb sec g = some (r, g₁, g₂) ∧ g₂.calls = cycleCalls cb p done := by
  have h' : (collectComponents sec { g with calls := [] }).1 = .ok := by
    rw [collectComponents_fst sec _ g]
    exact h
  obtain ⟨r, p, done, hrun, hp, heq⟩ := sysComponentStartAll_spec cb h' rfl
  have hcalls := rollbackComponents_startLifecycle_calls hp done
  by_cases hr : r = .ok
  · subst hr
    refine ⟨.ok, p, done, startLifecycle sec.table cb p done, _, hrun, hp, ?_, hcalls⟩
    simp [lifecycleRun, heq, sysComponentStopAll]
  · refine ⟨r, p, done, (rollbackComponents cb (startLifecycle sec.table cb p done)).2,
      (rollbackComponents cb (startLifecycle sec.table cb p done)).2, hrun, hp, ?_, hcalls⟩
    simp [lifecycleRun, heq, hr]

end StartPass

end Component
end AppCore
