/-
  AppCore.Component.InitPass

  The initialization pass in terms of its progress: the list of components whose
  init has been called and the list of components marked SKIPPED.  Every state
  the pass goes through is a function of these two lists (`Progress.lifecycle`),
  so the scan and the rounds of `initialize_phase` become two small big-step
  relations on progress (`ScanRun`, `PhaseRun`), and every later fact about the
  pass is proved by induction on them.
-/

import AppCore.Component.Graph

namespace AppCore
namespace Component

/-- What the initialization pass has done so far, oldest first. -/
structure Progress where
  called : List ComponentDesc := []
  skipped : List ComponentDesc := []

namespace Progress

/-- The init of `c` has been called. -/
def call (p : Progress) (c : ComponentDesc) : Progress :=
  { p with called := p.called ++ [c] }

/-- `c` has been marked SKIPPED. -/
def skip (p : Progress) (c : ComponentDesc) : Progress :=
  { p with skipped := p.skipped ++ [c] }

@[simp] theorem call_called (p : Progress) (c : ComponentDesc) :
    (p.call c).called = p.called ++ [c] := rfl
@[simp] theorem call_skipped (p : Progress) (c : ComponentDesc) :
    (p.call c).skipped = p.skipped := rfl
@[simp] theorem skip_called (p : Progress) (c : ComponentDesc) :
    (p.skip c).called = p.called := rfl
@[simp] theorem skip_skipped (p : Progress) (c : ComponentDesc) :
    (p.skip c).skipped = p.skipped ++ [c] := rfl

end Progress

section InitPass

variable (comps : List ComponentDesc) (cb : Callbacks)

/-- The init of the component with this id has been called and succeeded. -/
def InitDone (called : List ComponentDesc) (id : UInt32) : Prop :=
  id ∈ ids called ∧ cb.init id = .ok

/-- The component with this id is FAILED or SKIPPED. -/
def Progress.Down (p : Progress) (id : UInt32) : Prop :=
  (id ∈ ids p.called ∧ cb.init id ≠ .ok) ∨ id ∈ ids p.skipped

/-- All dependencies of the component are initialized. -/
def Ready (called : List ComponentDesc) (c : ComponentDesc) : Prop :=
  ∀ d ∈ c.dependencies, InitDone cb called d

/-- The component is still DISCOVERED. -/
def Progress.Pending (p : Progress) (c : ComponentDesc) : Prop :=
  c.id ∉ ids p.called ∧ c.id ∉ ids p.skipped

instance (called : List ComponentDesc) (id : UInt32) : Decidable (InitDone cb called id) :=
  inferInstanceAs (Decidable (_ ∧ _))

instance (p : Progress) (id : UInt32) : Decidable (p.Down cb id) :=
  inferInstanceAs (Decidable (_ ∨ _))

instance (called : List ComponentDesc) (c : ComponentDesc) : Decidable (Ready cb called c) :=
  inferInstanceAs (Decidable (∀ d ∈ c.dependencies, _))

instance (p : Progress) (c : ComponentDesc) : Decidable (p.Pending c) :=
  inferInstanceAs (Decidable (_ ∧ _))

/-- The first dependency that is not initialized is FAILED or SKIPPED. -/
def Progress.Doomed (p : Progress) (c : ComponentDesc) : Prop :=
  ∃ pre d post, c.dependencies = pre ++ d :: post ∧
    (∀ x ∈ pre, InitDone cb p.called x) ∧ p.Down cb d

/-- The slot of a component during the initialization pass. -/
def Progress.runtime (p : Progress) (id : UInt32) : ComponentRuntime :=
  if id ∈ ids p.skipped then { state := .skipped, lastError := .dependency }
  else if id ∈ ids p.called then
    if cb.init id = .ok then { state := .initialized, initialized := true }
    else { state := .failed, lastError := cb.init id }
  else {}

/-- The components initialized so far, in the order of their init calls. -/
def initialized (called : List ComponentDesc) : List ComponentDesc :=
  called.filter fun c => cb.init c.id = .ok

/-- The state of the framework during the initialization pass. -/
def Progress.lifecycle (p : Progress) : Lifecycle where
  components := comps
  runtime := p.runtime cb
  initializedOrder := (initialized cb p.called).reverse
  startedOrder := []
  calls := p.called.map fun c => .init c.id (cb.init c.id)

variable {comps cb}

@[simp] theorem Progress.lifecycle_components (p : Progress) :
    (p.lifecycle comps cb).components = comps := rfl
@[simp] theorem Progress.lifecycle_runtime (p : Progress) :
    (p.lifecycle comps cb).runtime = p.runtime cb := rfl
@[simp] theorem Progress.lifecycle_calls (p : Progress) :
    (p.lifecycle comps cb).calls = p.called.map fun c => .init c.id (cb.init c.id) := rfl

theorem Progress.runtime_of_pending {p : Progress} {c : ComponentDesc} (h : p.Pending c) :
    p.runtime cb c.id = {} := by
  rw [Progress.runtime, if_neg h.2, if_neg h.1]

theorem Progress.runtime_state_eq_discovered_iff (p : Progress) (c : ComponentDesc) :
    (p.runtime cb c.id).state = .discovered ↔ p.Pending c := by
  unfold Progress.runtime Progress.Pending
  by_cases hs : c.id ∈ ids p.skipped
  · simp [hs]
  · by_cases hc : c.id ∈ ids p.called
    · by_cases hok : cb.init c.id = .ok <;> simp [hs, hc, hok]
    · simp [hs, hc]

/-! ## The steps of the pass on progress -/

theorem initializeComponent_lifecycle {p : Progress} {c : ComponentDesc} (h : p.Pending c) :
    initializeComponent cb c (p.lifecycle comps cb) =
      (if cb.init c.id ≠ .ok ∧ c.policy = policyRequired then cb.init c.id else .ok,
        (p.call c).lifecycle comps cb) := by
  have hrt : p.runtime cb c.id = {} := Progress.runtime_of_pending h
  -- apart from the slot of `c` nothing but the order and the record changes
  have hother : ∀ i, i ≠ c.id → (p.call c).runtime cb i = p.runtime cb i := by
    intro i hi
    simp [Progress.runtime, hi]
  by_cases hok : cb.init c.id = .ok
  · have hown : (p.call c).runtime cb c.id =
        { state := .initialized, initialized := true } := by
      simp [Progress.runtime, h.2, hok]
    simp only [initializeComponent, hok, ne_eq, not_true_eq_false, if_false, false_and]
    congr 1
    simp only [Progress.lifecycle, updateState, setInitialized, Lifecycle.modify,
      Lifecycle.record, Lifecycle.mk.injEq, Progress.call_called, List.map_append]
    refine ⟨trivial, ?_, ?_, trivial, by simp [hok]⟩
    · funext i
      by_cases hi : i = c.id
      · subst hi; simp [hrt, hown]
      · simp [hi, hother i hi]
    · simp [initialized, List.filter_append, hok]
  · have hown : (p.call c).runtime cb c.id =
        { state := .failed, lastError := cb.init c.id } := by
      simp [Progress.runtime, h.2, hok]
    simp only [initializeComponent, hok, ne_eq, not_false_eq_true, if_true, true_and]
    congr 1
    simp only [Progress.lifecycle, updateState, Lifecycle.modify,
      Lifecycle.record, Lifecycle.mk.injEq, Progress.call_called, List.map_append]
    refine ⟨trivial, ?_, ?_, trivial, by simp⟩
    · funext i
      by_cases hi : i = c.id
      · subst hi; simp [hrt, hown]
      · simp [hi, hother i hi]
    · simp [initialized, List.filter_append, hok]

theorem handleDependencyFailure_lifecycle {p : Progress} {c : ComponentDesc}
    (h : p.Pending c) :
    handleDependencyFailure c (p.lifecycle comps cb) =
      (if c.policy = policyRequired then .dependency else .ok,
        (p.skip c).lifecycle comps cb) := by
  have hrt : p.runtime cb c.id = {} := Progress.runtime_of_pending h
  have hg : updateState c.id .skipped .dependency (p.lifecycle comps cb) =
      (p.skip c).lifecycle comps cb := by
    simp only [Progress.lifecycle, updateState, Lifecycle.modify, Lifecycle.mk.injEq,
      Progress.skip_called, and_true, true_and]
    funext i
    by_cases hi : i = c.id
    · subst hi
      simp only [Function.update_self, hrt]
      simp [Progress.runtime]
    · simp [hi, Progress.runtime]
  unfold handleDependencyFailure
  rw [hg]
  split <;> rfl

/-- The slot of a FAILED or SKIPPED component. -/
theorem Progress.runtime_state_of_down {p : Progress} {d : UInt32} (h : p.Down cb d) :
    (p.runtime cb d).state = .failed ∨ (p.runtime cb d).state = .skipped := by
  unfold Progress.runtime
  by_cases hs : d ∈ ids p.skipped
  · simp [hs]
  · obtain ⟨hc, hne⟩ := h.resolve_right hs
    simp [hs, hc, hne]

/-- The slot of an initialized component. -/
theorem Progress.runtime_of_initDone {p : Progress} {d : UInt32}
    (h : InitDone cb p.called d) (hs : d ∉ ids p.skipped) :
    p.runtime cb d = { state := .initialized, initialized := true } := by
  unfold Progress.runtime
  rw [if_neg hs, if_pos h.1, if_pos h.2]

/-- The slot of a component that is neither. -/
theorem Progress.runtime_of_unresolved {p : Progress} {d : UInt32}
    (hd : ¬ p.Down cb d) (hi : ¬ InitDone cb p.called d) : p.runtime cb d = {} := by
  simp only [Progress.Down, not_or, not_and, not_not] at hd
  have hc : d ∉ ids p.called := fun hc => hi ⟨hc, hd.1 hc⟩
  unfold Progress.runtime
  rw [if_neg hd.2, if_neg hc]

section CheckDependencies

variable {p : Progress} {deps : List UInt32} {c : ComponentDesc}

/-- One step of `check_dependencies` during the initialization pass. -/
theorem checkDependencyList_cons_lifecycle {d : UInt32} (hk : d ∈ ids comps)
    (hdisj : ∀ i ∈ ids p.called, i ∉ ids p.skipped) :
    checkDependencyList (p.lifecycle comps cb) false (d :: deps) =
      if p.Down cb d then .failed
      else if InitDone cb p.called d then
        checkDependencyList (p.lifecycle comps cb) false deps
      else .waiting := by
  obtain ⟨e, he⟩ : ∃ e, findComponent comps d = some e := by
    cases hf : findComponent comps d with
    | some e => exact ⟨e, rfl⟩
    | none =>
        obtain ⟨c, hc, hid⟩ := List.mem_map.mp hk
        have := List.find?_eq_none.mp hf c hc
        simp [hid] at this
  have hid : e.id = d := (findComponent_eq_some he).2
  simp only [checkDependencyList, Progress.lifecycle_components, he,
    Progress.lifecycle_runtime, hid]
  by_cases hdown : p.Down cb d
  · simp [hdown, Progress.runtime_state_of_down hdown]
  · by_cases hinit : InitDone cb p.called d
    · rw [Progress.runtime_of_initDone hinit (hdisj d hinit.1)]
      simp [hdown, hinit]
    · rw [Progress.runtime_of_unresolved hdown hinit]
      simp [hdown, hinit]

theorem checkDependencyList_eq_ready_iff (hk : ∀ d ∈ deps, d ∈ ids comps)
    (hdisj : ∀ i ∈ ids p.called, i ∉ ids p.skipped) :
    checkDependencyList (p.lifecycle comps cb) false deps = .ready ↔
      ∀ d ∈ deps, InitDone cb p.called d := by
  induction deps with
  | nil => simp [checkDependencyList]
  | cons d rest ih =>
      rw [checkDependencyList_cons_lifecycle (hk d (List.mem_cons_self ..)) hdisj]
      have ih := ih fun x hx => hk x (List.mem_cons_of_mem _ hx)
      by_cases hdown : p.Down cb d
      · have hnot : ¬ InitDone cb p.called d := by
          intro hinit
          rcases hdown with ⟨-, hne⟩ | hs
          · exact hne hinit.2
          · exact hdisj d hinit.1 hs
        simp [hdown, hnot]
      · by_cases hinit : InitDone cb p.called d
        · simp [hdown, hinit, ih]
        · simp [hdown, hinit]

theorem checkDependencyList_eq_failed_iff (hk : ∀ d ∈ deps, d ∈ ids comps)
    (hdisj : ∀ i ∈ ids p.called, i ∉ ids p.skipped) :
    checkDependencyList (p.lifecycle comps cb) false deps = .failed ↔
      ∃ pre d post, deps = pre ++ d :: post ∧
        (∀ x ∈ pre, InitDone cb p.called x) ∧ p.Down cb d := by
  induction deps with
  | nil => simp [checkDependencyList]
  | cons d rest ih =>
      rw [checkDependencyList_cons_lifecycle (hk d (List.mem_cons_self ..)) hdisj]
      have ih := ih fun x hx => hk x (List.mem_cons_of_mem _ hx)
      by_cases hdown : p.Down cb d
      · simp only [hdown, if_true, true_iff]
        exact ⟨[], d, rest, rfl, by simp, hdown⟩
      · rw [if_neg hdown]
        by_cases hinit : InitDone cb p.called d
        · rw [if_pos hinit, ih]
          constructor
          · rintro ⟨pre, x, post, rfl, hpre, hx⟩
            exact ⟨d :: pre, x, post, rfl, by simpa [hinit] using hpre, hx⟩
          · rintro ⟨pre, x, post, heq, hpre, hx⟩
            cases pre with
            | nil =>
                obtain ⟨rfl, -⟩ := List.cons.inj heq
                exact absurd hx hdown
            | cons y pre =>
                obtain ⟨-, rfl⟩ := List.cons.inj heq
                exact ⟨pre, x, post, rfl, fun z hz => hpre z (List.mem_cons_of_mem _ hz), hx⟩
        · rw [if_neg hinit]
          constructor
          · intro h; cases h
          · rintro ⟨pre, x, post, heq, hpre, hx⟩
            cases pre with
            | nil =>
                obtain ⟨rfl, -⟩ := List.cons.inj heq
                exact absurd hx hdown
            | cons y pre =>
                obtain ⟨rfl, -⟩ := List.cons.inj heq
                exact absurd (hpre d (List.mem_cons_self ..)) hinit

end CheckDependencies

/-! ## The invariant of the pass -/

/-- What holds at every point of the pass. -/
structure Progress.Inv (comps : List ComponentDesc) (cb : Callbacks) (p : Progress) :
    Prop where
  called_mem : ∀ c ∈ p.called, c ∈ comps
  skipped_mem : ∀ c ∈ p.skipped, c ∈ comps
  called_nodup : (ids p.called).Nodup
  skipped_nodup : (ids p.skipped).Nodup
  disjoint : ∀ i ∈ ids p.called, i ∉ ids p.skipped
  /-- An init is only called after the dependencies are initialized. -/
  called_ready : ∀ pre c post, p.called = pre ++ c :: post → Ready cb pre c
  /-- A component is only skipped because of a dependency that was FAILED or SKIPPED
      before. -/
  skipped_doomed : ∀ pre c post, p.skipped = pre ++ c :: post →
    Progress.Doomed cb { p with skipped := pre } c

section Monotone

variable {p : Progress} {c : ComponentDesc} {d : UInt32}

theorem InitDone.append {called : List ComponentDesc} (h : InitDone cb called d)
    (l : List ComponentDesc) : InitDone cb (called ++ l) d :=
  ⟨by simp only [ids, List.map_append]; exact List.mem_append_left _ h.1, h.2⟩

theorem Progress.Down.call (h : p.Down cb d) : (p.call c).Down cb d := by
  rcases h with ⟨hm, hne⟩ | hs
  · exact Or.inl ⟨by simp only [Progress.call_called, List.map_append]
                     exact List.mem_append_left _ hm, hne⟩
  · exact Or.inr hs

theorem Progress.Down.skip (h : p.Down cb d) : (p.skip c).Down cb d := by
  rcases h with h | hs
  · exact Or.inl h
  · exact Or.inr (by simp only [Progress.skip_skipped, List.map_append]
                     exact List.mem_append_left _ hs)

theorem Progress.Doomed.skip {e : ComponentDesc} (h : p.Doomed cb c) :
    (p.skip e).Doomed cb c := by
  obtain ⟨pre, d, post, heq, hpre, hd⟩ := h
  exact ⟨pre, d, post, heq, hpre, hd.skip⟩

theorem Progress.Doomed.call {e : ComponentDesc} (h : p.Doomed cb c) :
    (p.call e).Doomed cb c := by
  obtain ⟨pre, d, post, heq, hpre, hd⟩ := h
  exact ⟨pre, d, post, heq, fun x hx => (hpre x hx).append [e], hd.call⟩

theorem Progress.Inv.skipped_down (h : p.Inv comps cb) (hc : c ∈ p.skipped) :
    ∃ d ∈ c.dependencies, p.Down cb d := by
  obtain ⟨pre, post, heq⟩ := List.append_of_mem hc
  obtain ⟨a, d, b, hdeps, -, hd⟩ := h.skipped_doomed pre c post heq
  refine ⟨d, by rw [hdeps]; simp, hd.imp_right fun hs => ?_⟩
  rw [heq, ids, List.map_append]
  exact List.mem_append_left _ hs

end Monotone

theorem Progress.inv_empty : ({} : Progress).Inv comps cb where
  called_mem := by simp
  skipped_mem := by simp
  called_nodup := by simp
  skipped_nodup := by simp
  disjoint := by simp
  called_ready := by simp
  skipped_doomed := by simp

/-- Calling the init of a pending component that is ready keeps the invariant. -/
theorem Progress.Inv.call {p : Progress} {c : ComponentDesc} (h : p.Inv comps cb)
    (hc : c ∈ comps) (hp : p.Pending c) (hr : Ready cb p.called c) :
    (p.call c).Inv comps cb where
  called_mem := by
    intro e he
    rcases List.mem_append.mp he with he | he
    · exact h.called_mem e he
    · rw [List.mem_singleton.mp he]; exact hc
  skipped_mem := h.skipped_mem
  called_nodup := by
    simp only [Progress.call_called, List.map_append, List.map_cons, List.map_nil]
    exact List.nodup_append.mpr ⟨h.called_nodup, List.nodup_singleton _, by
      intro a ha b hb hab
      rw [List.mem_singleton.mp hb] at hab
      exact hp.1 (hab ▸ ha)⟩
  skipped_nodup := h.skipped_nodup
  disjoint := by
    intro i hi
    simp only [Progress.call_called, List.map_append, List.map_cons, List.map_nil,
      List.mem_append, List.mem_singleton] at hi
    rcases hi with hi | rfl
    · exact h.disjoint i hi
    · exact hp.2
  called_ready := by
    intro pre e post heq
    simp only [Progress.call_called] at heq
    rcases List.eq_nil_or_concat' post with rfl | ⟨post', last, rfl⟩
    · obtain ⟨rfl, hce⟩ := List.append_inj' heq rfl
      cases hce
      exact hr
    · have hlast : p.called = pre ++ e :: post' := by
        have : p.called ++ [c] = (pre ++ e :: post') ++ [last] := by simpa using heq
        exact (List.append_inj' this rfl).1
      exact h.called_ready pre e post' hlast
  skipped_doomed pre e post heq := (h.skipped_doomed pre e post heq).call

/-- Skipping a pending component with a FAILED or SKIPPED dependency keeps the
    invariant. -/
theorem Progress.Inv.skip {p : Progress} {c : ComponentDesc} (h : p.Inv comps cb)
    (hc : c ∈ comps) (hp : p.Pending c) (hd : p.Doomed cb c) :
    (p.skip c).Inv comps cb where
  called_mem := h.called_mem
  skipped_mem := by
    intro e he
    rcases List.mem_append.mp he with he | he
    · exact h.skipped_mem e he
    · rw [List.mem_singleton.mp he]; exact hc
  called_nodup := h.called_nodup
  skipped_nodup := by
    simp only [Progress.skip_skipped, List.map_append, List.map_cons, List.map_nil]
    exact List.nodup_append.mpr ⟨h.skipped_nodup, List.nodup_singleton _, by
      intro a ha b hb hab
      rw [List.mem_singleton.mp hb] at hab
      exact hp.2 (hab ▸ ha)⟩
  disjoint := by
    intro i hi hs
    simp only [Progress.skip_skipped, List.map_append, List.map_cons, List.map_nil,
      List.mem_append, List.mem_singleton] at hs
    rcases hs with hs | rfl
    · exact h.disjoint i hi hs
    · exact hp.1 hi
  called_ready := h.called_ready
  skipped_doomed := by
    intro pre e post heq
    simp only [Progress.skip_skipped] at heq
    rcases List.eq_nil_or_concat' post with rfl | ⟨post', last, rfl⟩
    · obtain ⟨rfl, hce⟩ := List.append_inj' heq rfl
      cases hce
      exact hd
    · have hlast : p.skipped = pre ++ e :: post' := by
        have : p.skipped ++ [c] = (pre ++ e :: post') ++ [last] := by simpa using heq
        exact (List.append_inj' this rfl).1
      exact h.skipped_doomed pre e post' hlast

theorem Progress.Inv.not_down_of_initDone {p : Progress} {d : UInt32} (h : p.Inv comps cb)
    (hi : InitDone cb p.called d) : ¬ p.Down cb d := by
  rintro (⟨-, hne⟩ | hs)
  · exact hne hi.2
  · exact h.disjoint d hi.1 hs

/-- A component whose dependencies are all initialized is not skipped. -/
theorem Progress.Inv.not_skipped_of_ready {p : Progress} {c : ComponentDesc}
    (h : p.Inv comps cb) (hnd : (ids comps).Nodup) (hc : c ∈ comps)
    (hr : Ready cb p.called c) : c.id ∉ ids p.skipped := by
  intro hs
  obtain ⟨e, he, hid⟩ := List.mem_map.mp hs
  have : e = c := eq_of_id_eq hnd (h.skipped_mem e he) hc hid
  subst this
  obtain ⟨d, hd, hdown⟩ := h.skipped_down he
  exact h.not_down_of_initDone (hr d hd) hdown

/-- What has been initialized is init-ok. -/
theorem Progress.Inv.initOk {p : Progress} (h : p.Inv comps cb) {i : UInt32}
    (hi : InitDone cb p.called i) : InitOk comps cb i := by
  -- along the list of calls: the dependencies of each call precede it
  have hpre : ∀ n pre post, pre.length = n → p.called = pre ++ post →
      ∀ i, InitDone cb pre i → InitOk comps cb i := by
    intro n
    induction n with
    | zero =>
        intro pre post hlen heq i hi
        rw [List.length_eq_zero_iff.mp hlen] at hi
        exact absurd hi.1 (by simp)
    | succ n ih =>
        intro pre post hlen heq i hi
        rcases List.eq_nil_or_concat' pre with rfl | ⟨pre', c, rfl⟩
        · simp at hlen
        · have hlen' : pre'.length = n := by simpa using hlen
          have heq' : p.called = pre' ++ c :: post := by simpa using heq
          have hrec := ih pre' (c :: post) hlen' heq'
          obtain ⟨hm, hok⟩ := hi
          simp only [ids, List.map_append, List.map_cons, List.map_nil, List.mem_append,
            List.mem_singleton] at hm
          rcases hm with hm | rfl
          · exact hrec i ⟨hm, hok⟩
          · have hready := h.called_ready pre' c post heq'
            exact InitOk.intro (h.called_mem c (by rw [heq']; simp))
              (fun d hd => hrec d (hready d hd)) hok
  exact hpre p.called.length p.called [] rfl (by simp) i hi

/-- What is FAILED or SKIPPED is not init-ok. -/
theorem Progress.Inv.not_initOk_of_down {p : Progress} (h : p.Inv comps cb)
    (hnd : (ids comps).Nodup) {i : UInt32} (hd : p.Down cb i) : ¬ InitOk comps cb i := by
  intro hi
  induction hi with
  | @intro c hc hdeps hok ih =>
      rcases hd with ⟨-, hne⟩ | hs
      · exact hne hok
      · obtain ⟨e, he, hid⟩ := List.mem_map.mp hs
        have : e = c := eq_of_id_eq hnd (h.skipped_mem e he) hc hid
        subst this
        obtain ⟨d, hd, hdown⟩ := h.skipped_down he
        exact ih d hd hdown

/-- What is FAILED or SKIPPED is given up by the recursion. -/
theorem Progress.Inv.initDown_of_down {p : Progress} (h : p.Inv comps cb) {i : UInt32}
    (hd : p.Down cb i) : InitDown comps cb i := by
  have hfail : ∀ i, i ∈ ids p.called → cb.init i ≠ .ok → InitDown comps cb i := by
    intro i hm hne
    obtain ⟨c, hc, rfl⟩ := List.mem_map.mp hm
    obtain ⟨pre, post, heq⟩ := List.append_of_mem hc
    refine InitDown.fail (h.called_mem c hc) (fun d hd => h.initOk ?_) hne
    rw [heq]
    exact (h.called_ready pre c post heq d hd).append _
  -- along the list of skips: the cause of each skip precedes it
  have hskip : ∀ n pre post, pre.length = n → p.skipped = pre ++ post →
      ∀ i ∈ ids pre, InitDown comps cb i := by
    intro n
    induction n with
    | zero =>
        intro pre post hlen heq i hi
        rw [List.length_eq_zero_iff.mp hlen] at hi
        cases hi
    | succ n ih =>
        intro pre post hlen heq i hi
        rcases List.eq_nil_or_concat' pre with rfl | ⟨pre', c, rfl⟩
        · simp at hlen
        · have hlen' : pre'.length = n := by simpa using hlen
          have heq' : p.skipped = pre' ++ c :: post := by simpa using heq
          have hrec := ih pre' (c :: post) hlen' heq'
          simp only [ids, List.map_append, List.map_cons, List.map_nil, List.mem_append,
            List.mem_singleton] at hi
          rcases hi with hi | rfl
          · exact hrec i hi
          · obtain ⟨a, d, b, hdeps, ha, hdd⟩ := h.skipped_doomed pre' c post heq'
            refine InitDown.skip (h.skipped_mem c (by rw [heq']; simp)) hdeps
              (fun x hx => h.initOk (ha x hx)) ?_
            rcases hdd with ⟨hm, hne⟩ | hs
            · exact hfail d hm hne
            · exact hrec d hs
  rcases hd with ⟨hm, hne⟩ | hs
  · exact hfail i hm hne
  · exact hskip p.skipped.length p.skipped [] rfl (by simp) i hs

end InitPass

end Component
end AppCore
