/-
  AppCore.Component.SlowPass

  The initialization pass without a link order.  `SlowRun` makes one small round at a
  time: it skips the components that are blocked when the round begins, all of them and
  no others, and then calls the init of the least component that is ready.  What a scan
  of the program may skip on top of that in the same round is `Threatened`.

  `OrderFree` says of every round of the slow pass that no order of the table can make a
  difference to it.
-/

import AppCore.Component.StartPass

namespace AppCore
namespace Component

namespace Progress

/-- The components of `b` have been marked SKIPPED, one after the other. -/
def skipAll (p : Progress) (b : List ComponentDesc) : Progress :=
  { p with skipped := p.skipped ++ b }

@[simp] theorem skipAll_called (p : Progress) (b : List ComponentDesc) :
    (p.skipAll b).called = p.called := rfl
@[simp] theorem skipAll_skipped (p : Progress) (b : List ComponentDesc) :
    (p.skipAll b).skipped = p.skipped ++ b := rfl

@[simp] theorem skipAll_nil (p : Progress) : p.skipAll [] = p := by
  simp [skipAll]

theorem skipAll_cons (p : Progress) (c : ComponentDesc) (b : List ComponentDesc) :
    p.skipAll (c :: b) = (p.skip c).skipAll b := by
  simp [skipAll, skip]

theorem skipAll_append (p : Progress) (a b : List ComponentDesc) :
    p.skipAll (a ++ b) = (p.skipAll a).skipAll b := by
  simp [skipAll]

/-- The loop of `Doomed` over the remaining dependencies. -/
def doomedBy (cb : Callbacks) (p : Progress) : List UInt32 → Bool
  | [] => false
  | d :: rest => decide (p.Down cb d) || (decide (InitDone cb p.called d) && doomedBy cb p rest)

theorem doomedBy_eq_true_iff (cb : Callbacks) (p : Progress) (deps : List UInt32) :
    p.doomedBy cb deps = true ↔ ∃ pre d post, deps = pre ++ d :: post ∧
      (∀ x ∈ pre, InitDone cb p.called x) ∧ p.Down cb d := by
  induction deps with
  | nil => simp [doomedBy]
  | cons d rest ih =>
      simp only [doomedBy, Bool.or_eq_true, Bool.and_eq_true, decide_eq_true_eq, ih]
      constructor
      · rintro (hd | ⟨hd, pre, x, post, rfl, hpre, hx⟩)
        · exact ⟨[], d, rest, rfl, by simp, hd⟩
        · exact ⟨d :: pre, x, post, rfl, List.forall_mem_cons.mpr ⟨hd, hpre⟩, hx⟩
      · rintro ⟨pre, x, post, heq, hpre, hx⟩
        cases pre with
        | nil =>
            obtain ⟨rfl, -⟩ := List.cons.inj heq
            exact Or.inl hx
        | cons y pre =>
            obtain ⟨rfl, rfl⟩ := List.cons.inj heq
            obtain ⟨hy, hpre⟩ := List.forall_mem_cons.mp hpre
            exact Or.inr ⟨hy, pre, x, post, rfl, hpre, hx⟩

instance (cb : Callbacks) (p : Progress) (c : ComponentDesc) : Decidable (p.Doomed cb c) :=
  decidable_of_iff _ (doomedBy_eq_true_iff cb p c.dependencies)

end Progress

section SlowPass

variable (comps : List ComponentDesc) (cb : Callbacks) (phase : Nat) (p : Progress)

/-- A scan that finds the component in this state skips it. -/
def Blocked (c : ComponentDesc) : Prop :=
  p.Pending c ∧ c.phase = phase ∧ p.Doomed cb c

instance (c : ComponentDesc) : Decidable (Blocked cb phase p c) :=
  inferInstanceAs (Decidable (_ ∧ _ ∧ _))

/-- The components that are blocked when the round begins. -/
def blocked : List ComponentDesc :=
  comps.filter fun c => Blocked cb phase p c

/-- A component that some order of the table makes a scan skip in this round: it is
    blocked, or becomes so when another one is skipped before it is looked at. -/
inductive Threatened : ComponentDesc → Prop
  | base {c} : c ∈ blocked comps cb phase p → Threatened c
  | next {c d pre post} : c ∈ comps → p.Pending c → c.phase = phase → Threatened d →
      c.dependencies = pre ++ d.id :: post → (∀ x ∈ pre, InitDone cb p.called x) →
      Threatened c

/-- The rounds of the slow pass, with the phases that are left. -/
inductive SlowRun : List Nat → Progress → Prop
  | start : SlowRun (List.range phaseCount) {}
  | init {phase rest p c} : SlowRun (phase :: rest) p →
      (∀ e ∈ blocked comps cb phase p, e.policy ≠ policyRequired) →
      nextInit comps cb phase p.called = some c →
      ¬ (cb.init c.id ≠ .ok ∧ c.policy = policyRequired) →
      SlowRun (phase :: rest) ((p.skipAll (blocked comps cb phase p)).call c)
  | again {phase rest p} : SlowRun (phase :: rest) p →
      (∀ e ∈ blocked comps cb phase p, e.policy ≠ policyRequired) →
      nextInit comps cb phase p.called = none →
      SlowRun (phase :: rest) (p.skipAll (blocked comps cb phase p))
  | phase {phase rest p} : SlowRun (phase :: rest) p →
      (∀ c ∈ comps, c.phase = phase → ¬ p.Pending c) → SlowRun rest p

/-- No order of the table makes a difference to this round.  Either the scan cannot stop at
    a required component, and when the init after it fails for good there is nothing that
    only some orders skip.  Or one component is blocked, and the others wait for it until
    the scan, or the next one, stops. -/
def RoundDetermined : Prop :=
  ((∀ e, Threatened comps cb phase p e → e.policy ≠ policyRequired) ∧
    ∀ c, nextInit comps cb phase p.called = some c → cb.init c.id ≠ .ok →
      c.policy = policyRequired →
      ∀ e, Threatened comps cb phase p e → e ∈ blocked comps cb phase p) ∨
  ∃ c, (∀ e, e ∈ blocked comps cb phase p ↔ e = c) ∧
    (c.policy = policyRequired ∨ nextInit comps cb phase p.called = none)

/-- No order of the table makes a difference to any round of the slow pass. -/
def OrderFree : Prop :=
  ∀ phase rest p, SlowRun comps cb (phase :: rest) p → RoundDetermined comps cb phase p

variable {comps cb phase p}

theorem mem_blocked {c : ComponentDesc} :
    c ∈ blocked comps cb phase p ↔ c ∈ comps ∧ Blocked cb phase p c := by
  simp [blocked]

theorem blocked_mem {c : ComponentDesc} (h : c ∈ blocked comps cb phase p) : c ∈ comps :=
  (mem_blocked.mp h).1

theorem Threatened.mem {c : ComponentDesc} (h : Threatened comps cb phase p c) : c ∈ comps := by
  cases h with
  | base hb => exact blocked_mem hb
  | next hc => exact hc

theorem Threatened.pending {c : ComponentDesc} (h : Threatened comps cb phase p c) :
    p.Pending c := by
  cases h with
  | base hb => exact (mem_blocked.mp hb).2.1
  | next _ hp => exact hp

/-! ## Permuted tables -/

section Perm

variable {l : List ComponentDesc} {called : List ComponentDesc}

theorem ids_nodup_of_perm (hl : l.Perm comps) (hnd : (ids comps).Nodup) : (ids l).Nodup :=
  (hl.map _).nodup_iff.mpr hnd

theorem Accepted.of_perm (hacc : Accepted comps) (hl : l.Perm comps) : Accepted l where
  nodup := ids_nodup_of_perm hl hacc.nodup
  known c hc d hd := by
    obtain ⟨e, he, hid, hle⟩ := hacc.known c (hl.mem_iff.mp hc) d hd
    exact ⟨e, hl.mem_iff.mpr he, hid, hle⟩
  phase_lt c hc := hacc.phase_lt c (hl.mem_iff.mp hc)
  policy_le c hc := hacc.policy_le c (hl.mem_iff.mp hc)

theorem Progress.Inv.of_perm (h : p.Inv comps cb) (hl : l.Perm comps) : p.Inv l cb where
  called_mem c hc := hl.mem_iff.mpr (h.called_mem c hc)
  skipped_mem c hc := hl.mem_iff.mpr (h.skipped_mem c hc)
  called_nodup := h.called_nodup
  skipped_nodup := h.skipped_nodup
  disjoint := h.disjoint
  called_ready := h.called_ready
  skipped_doomed := h.skipped_doomed

/-- The next init is the least id that is ready, whatever the order of the table. -/
theorem nextInit_of_perm (hl : l.Perm comps) (hnd : (ids comps).Nodup) :
    nextInit l cb phase called = nextInit comps cb phase called := by
  cases h : nextInit l cb phase called with
  | none =>
      cases h' : nextInit comps cb phase called with
      | none => rfl
      | some c =>
          obtain ⟨hc, hel, -⟩ := nextInit_eq_some h'
          exact absurd hel (nextInit_eq_none h c (hl.mem_iff.mpr hc))
  | some c =>
      obtain ⟨hc, hel, hmin⟩ := nextInit_eq_some h
      have hc : c ∈ comps := hl.mem_iff.mp hc
      cases h' : nextInit comps cb phase called with
      | none => exact absurd hel (nextInit_eq_none h' c hc)
      | some e =>
          obtain ⟨he, hel', hmin'⟩ := nextInit_eq_some h'
          have hid : c.id = e.id := by
            apply UInt32.toNat_inj.mp
            have hle := hmin e (hl.mem_iff.mpr he) hel'
            have hge := hmin' c hc hel
            omega
          rw [eq_of_id_eq hnd hc he hid]

end Perm

/-! ## Scans of composed tables -/

section Scan

variable {l a b : List ComponentDesc} {p' p₁ p₂ : Progress} {o o₁ o₂ : Option ComponentDesc}
  {y : ComponentDesc}

theorem ScanRun.total (cb : Callbacks) (phase : Nat) (l : List ComponentDesc) (p : Progress) :
    ∃ o p', ScanRun cb phase l p o p' := by
  induction l generalizing p with
  | nil => exact ⟨none, p, ScanRun.nil p⟩
  | cons c rest ih =>
      by_cases hc : Blocked cb phase p c
      · obtain ⟨hpend, hph, hdoom⟩ := hc
        by_cases hreq : c.policy = policyRequired
        · exact ⟨some c, _, ScanRun.halt hpend hph hdoom hreq⟩
        · obtain ⟨o, p', h⟩ := ih (p.skip c)
          exact ⟨o, p', ScanRun.skip hpend hph hdoom hreq h⟩
      · obtain ⟨o, p', h⟩ := ih p
        exact ⟨o, p', ScanRun.keep hc h⟩

theorem ScanRun.deterministic (h₁ : ScanRun cb phase l p o₁ p₁)
    (h₂ : ScanRun cb phase l p o₂ p₂) : o₂ = o₁ ∧ p₂ = p₁ := by
  induction h₁ with
  | nil =>
      cases h₂
      exact ⟨rfl, rfl⟩
  | keep hnot _ ih =>
      cases h₂ with
      | keep _ h => exact ih h
      | skip hp hph hd => exact absurd ⟨hp, hph, hd⟩ hnot
      | halt hp hph hd => exact absurd ⟨hp, hph, hd⟩ hnot
  | skip hp hph hd hopt _ ih =>
      cases h₂ with
      | keep hnot => exact absurd ⟨hp, hph, hd⟩ hnot
      | skip _ _ _ _ h => exact ih h
      | halt _ _ _ hreq => exact absurd hreq hopt
  | halt hp hph hd hreq =>
      cases h₂ with
      | keep hnot => exact absurd ⟨hp, hph, hd⟩ hnot
      | skip _ _ _ hopt => exact absurd hreq hopt
      | halt => exact ⟨rfl, rfl⟩

theorem ScanRun.append (h : ScanRun cb phase a p none p₁) (h' : ScanRun cb phase b p₁ o p') :
    ScanRun cb phase (a ++ b) p o p' := by
  generalize hn : (none : Option ComponentDesc) = r at h
  induction h with
  | nil => exact h'
  | keep hnot _ ih => exact ScanRun.keep hnot (ih h' hn)
  | skip hp hph hd hopt _ ih => exact ScanRun.skip hp hph hd hopt (ih h' hn)
  | halt => cases hn

theorem ScanRun.append_halt (h : ScanRun cb phase a p (some y) p') (b : List ComponentDesc) :
    ScanRun cb phase (a ++ b) p (some y) p' := by
  generalize hn : some y = r at h
  induction h with
  | nil => cases hn
  | keep hnot _ ih => exact ScanRun.keep hnot (ih hn)
  | skip hp hph hd hopt _ ih => exact ScanRun.skip hp hph hd hopt (ih hn)
  | halt hp hph hd hreq => exact ScanRun.halt hp hph hd hreq

/-- What is skipped in the front part of a table stays skipped. -/
theorem ScanRun.skipped_of_front (h : ScanRun cb phase (a ++ b) p o p')
    (ha : ScanRun cb phase a p o₁ p₁) : ∀ c ∈ p₁.skipped, c ∈ p'.skipped := by
  intro c hc
  cases o₁ with
  | some y =>
      obtain ⟨-, rfl⟩ := (ha.append_halt b).deterministic h
      exact hc
  | none =>
      obtain ⟨o₂, p₂, hb⟩ := ScanRun.total cb phase b p₁
      obtain ⟨-, rfl⟩ := (ha.append hb).deterministic h
      obtain ⟨new, hnew, -⟩ := hb.skipped_append
      rw [hnew]
      exact List.mem_append_left _ hc

/-- A scan passes over what is not blocked. -/
theorem ScanRun.of_not_blocked (h : ∀ c ∈ l, ¬ Blocked cb phase p c) :
    ScanRun cb phase l p none p := by
  induction l with
  | nil => exact ScanRun.nil p
  | cons c rest ih =>
      exact ScanRun.keep (h c (List.mem_cons_self ..))
        (ih fun e he => h e (List.mem_cons_of_mem _ he))

/-- A blocked component stays blocked while others are skipped. -/
theorem Blocked.skip {c e : ComponentDesc} (h : Blocked cb phase p c) (hne : c.id ≠ e.id) :
    Blocked cb phase (p.skip e) c := by
  obtain ⟨⟨hcalled, hskipped⟩, hph, hdoom⟩ := h
  refine ⟨⟨hcalled, ?_⟩, hph, hdoom.skip⟩
  simp only [Progress.skip_skipped, List.map_append, List.map_cons, List.map_nil,
    List.mem_append, List.mem_singleton, not_or]
  exact ⟨hskipped, hne⟩

/-- A scan skips optional components that are all blocked. -/
theorem ScanRun.of_blocked (hnd : (ids l).Nodup) (h : ∀ c ∈ l, Blocked cb phase p c)
    (hopt : ∀ c ∈ l, c.policy ≠ policyRequired) :
    ScanRun cb phase l p none (p.skipAll l) := by
  induction l generalizing p with
  | nil =>
      rw [Progress.skipAll_nil]
      exact ScanRun.nil p
  | cons c rest ih =>
      obtain ⟨hpend, hph, hdoom⟩ := h c (List.mem_cons_self ..)
      obtain ⟨hnot, hrest⟩ := List.nodup_cons.mp hnd
      rw [Progress.skipAll_cons]
      refine ScanRun.skip hpend hph hdoom (hopt c (List.mem_cons_self ..)) (ih hrest ?_ ?_)
      · intro e he
        have hm : e.id ∈ ids rest := mem_ids_of_mem he
        refine (h e (List.mem_cons_of_mem _ he)).skip fun hid => hnot ?_
        rw [hid] at hm
        exact hm
      · exact fun e he => hopt e (List.mem_cons_of_mem _ he)

/-- What a scan skips before it stops at a required component. -/
theorem ScanRun.halted (h : ScanRun cb phase l p (some y) p') :
    y ∈ p'.skipped ∧ y.policy = policyRequired := by
  generalize hn : some y = r at h
  induction h with
  | nil => cases hn
  | keep _ _ ih => exact ih hn
  | skip _ _ _ _ _ ih => exact ih hn
  | halt _ _ _ hreq =>
      cases hn
      exact ⟨by simp, hreq⟩

end Scan

/-! ## One round of a phase -/

section Round

variable {l : List ComponentDesc} {c y : ComponentDesc} {r : SysErr} {s e : Progress}

/-- A round whose scan stops. -/
theorem PhaseRun.inv_halt (hscan : ScanRun cb phase l p (some y) s)
    (h : PhaseRun l cb phase p r e) : r = .dependency ∧ e = s := by
  have hnone : ∀ {s'}, ¬ ScanRun cb phase l p none s' := fun hscan' => by
    obtain ⟨hn, -⟩ := hscan.deterministic hscan'
    cases hn
  cases h with
  | halt hscan' => exact ⟨rfl, (hscan.deterministic hscan').2⟩
  | done hscan' => exact absurd hscan' hnone
  | stuck hscan' => exact absurd hscan' hnone
  | again hscan' => exact absurd hscan' hnone
  | fail hscan' => exact absurd hscan' hnone
  | next hscan' => exact absurd hscan' hnone

/-- A round that calls an init. -/
theorem PhaseRun.inv_init (hscan : ScanRun cb phase l p none s)
    (hc : nextInit l cb phase p.called = some c) (hp : p.Pending c)
    (h : PhaseRun l cb phase p r e) :
    (cb.init c.id ≠ .ok ∧ c.policy = policyRequired ∧ r = cb.init c.id ∧ e = s.call c) ∨
      (¬ (cb.init c.id ≠ .ok ∧ c.policy = policyRequired) ∧
        PhaseRun l cb phase (s.call c) r e) := by
  obtain ⟨hmem, hel, -⟩ := nextInit_eq_some hc
  cases h with
  | halt hscan' =>
      obtain ⟨hn, -⟩ := hscan.deterministic hscan'
      cases hn
  | done _ hdone => exact absurd hp (hdone c hmem hel.1)
  | stuck _ _ hn =>
      rw [hc] at hn
      cases hn
  | again _ _ hn =>
      rw [hc] at hn
      cases hn
  | fail hscan' hx hne hreq =>
      rw [hc] at hx
      cases hx
      obtain ⟨-, rfl⟩ := hscan.deterministic hscan'
      exact Or.inl ⟨hne, hreq, rfl, rfl⟩
  | next hscan' hx hgood hrun =>
      rw [hc] at hx
      cases hx
      obtain ⟨-, rfl⟩ := hscan.deterministic hscan'
      exact Or.inr ⟨hgood, hrun⟩

/-- A round without an init: it is repeated when the scan has skipped something, and is the
    last one otherwise. -/
theorem PhaseRun.inv_none (hscan : ScanRun cb phase l p none s)
    (hn : nextInit l cb phase p.called = none) (h : PhaseRun l cb phase p r e) :
    (s ≠ p ∧ PhaseRun l cb phase s r e) ∨
      (s = p ∧ e = p ∧ ((r = .ok ∧ ∀ c ∈ l, c.phase = phase → ¬ p.Pending c) ∨
        (r = .dependency ∧ ∃ c ∈ l, c.phase = phase ∧ p.Pending c))) := by
  cases h with
  | halt hscan' =>
      obtain ⟨hn, -⟩ := hscan.deterministic hscan'
      cases hn
  | done hscan' hdone =>
      obtain ⟨-, rfl⟩ := hscan.deterministic hscan'
      exact Or.inr ⟨rfl, rfl, Or.inl ⟨rfl, hdone⟩⟩
  | stuck hscan' hpend _ =>
      obtain ⟨-, rfl⟩ := hscan.deterministic hscan'
      exact Or.inr ⟨rfl, rfl, Or.inr ⟨rfl, hpend⟩⟩
  | again hscan' hne _ hrun =>
      obtain ⟨-, rfl⟩ := hscan.deterministic hscan'
      exact Or.inl ⟨hne, hrun⟩
  | fail _ hx =>
      rw [hn] at hx
      cases hx
  | next _ hx =>
      rw [hn] at hx
      cases hx

end Round

/-! ## What holds along the slow pass -/

theorem blocked_nodup (hnd : (ids comps).Nodup) : (ids (blocked comps cb phase p)).Nodup :=
  hnd.sublist (List.filter_sublist.map _)

/-- One round of skips. -/
theorem scanRun_blocked (hnd : (ids comps).Nodup)
    (hopt : ∀ e ∈ blocked comps cb phase p, e.policy ≠ policyRequired) :
    ScanRun cb phase (blocked comps cb phase p) p none
      (p.skipAll (blocked comps cb phase p)) :=
  ScanRun.of_blocked (blocked_nodup hnd) (fun _ hc => (mem_blocked.mp hc).2) hopt

theorem Progress.Inv.call_next (hacc : Accepted comps) (hp : p.Inv comps cb) {c : ComponentDesc}
    {called : List ComponentDesc} (hcalled : p.called = called)
    (hc : nextInit comps cb phase called = some c) : (p.call c).Inv comps cb := by
  subst hcalled
  obtain ⟨hmem, hel, -⟩ := nextInit_eq_some hc
  exact hp.call hmem (hel.pending hacc hp hmem) hel.2.2

theorem PhaseRun.deterministic {r₁ r₂ : SysErr} {p₁ p₂ : Progress} (hacc : Accepted comps)
    (hp : p.Inv comps cb) (h₁ : PhaseRun comps cb phase p r₁ p₁)
    (h₂ : PhaseRun comps cb phase p r₂ p₂) : r₂ = r₁ ∧ p₂ = p₁ := by
  have hpend : ∀ {p : Progress} {c}, p.Inv comps cb →
      nextInit comps cb phase p.called = some c → p.Pending c := by
    intro p c hp hc
    obtain ⟨hmem, hel, -⟩ := nextInit_eq_some hc
    exact hel.pending hacc hp hmem
  induction h₁ with
  | halt hscan => exact h₂.inv_halt hscan
  | done hscan hdone =>
      cases hc : nextInit comps cb phase _ with
      | some c => exact absurd (hpend hp hc) (hdone c (nextInit_eq_some hc).1
          (nextInit_eq_some hc).2.1.1)
      | none =>
          rcases h₂.inv_none hscan hc with ⟨hne, -⟩ | ⟨-, he, ⟨hr, -⟩ | ⟨-, c, hc, hph, hpc⟩⟩
          · exact absurd rfl hne
          · exact ⟨hr, he⟩
          · exact absurd hpc (hdone c hc hph)
  | stuck hscan hpc hc =>
      rcases h₂.inv_none hscan hc with ⟨hne, -⟩ | ⟨-, he, ⟨-, hdone⟩ | ⟨hr, -⟩⟩
      · exact absurd rfl hne
      · obtain ⟨c, hc, hph, hpc⟩ := hpc
        exact absurd hpc (hdone c hc hph)
      · exact ⟨hr, he⟩
  | again hscan hne hc _ ih =>
      rcases h₂.inv_none hscan hc with ⟨-, hrun⟩ | ⟨heq, -⟩
      · exact ih (hscan.inv (fun _ h => h) hp) hrun
      · exact absurd heq hne
  | fail hscan hc hne hreq =>
      rcases h₂.inv_init hscan hc (hpend hp hc) with ⟨-, -, hr, he⟩ | ⟨hgood, -⟩
      · exact ⟨hr, he⟩
      · exact absurd ⟨hne, hreq⟩ hgood
  | next hscan hc hgood _ ih =>
      rcases h₂.inv_init hscan hc (hpend hp hc) with ⟨hne, hreq, -⟩ | ⟨-, hrun⟩
      · exact absurd ⟨hne, hreq⟩ hgood
      · exact ih ((hscan.inv (fun _ h => h) hp).call_next hacc hscan.called_eq hc) hrun

theorem PassRun.deterministic {phases : List Nat} {r₁ r₂ : SysErr} {p₁ p₂ : Progress}
    (hacc : Accepted comps) (hp : p.Inv comps cb) (h₁ : PassRun comps cb phases p r₁ p₁)
    (h₂ : PassRun comps cb phases p r₂ p₂) : r₂ = r₁ ∧ p₂ = p₁ := by
  induction h₁ with
  | nil =>
      cases h₂
      exact ⟨rfl, rfl⟩
  | error hrun hne =>
      cases h₂ with
      | error hrun' _ => exact hrun.deterministic hacc hp hrun'
      | next hrun' _ => exact absurd (hrun.deterministic hacc hp hrun').1.symm hne
  | next hrun _ ih =>
      cases h₂ with
      | error hrun' hne => exact absurd (hrun.deterministic hacc hp hrun').1 hne
      | next hrun' hrest =>
          obtain ⟨-, rfl⟩ := hrun.deterministic hacc hp hrun'
          exact ih (hrun.inv hacc hp) hrest

theorem SlowRun.inv (hacc : Accepted comps) {phases : List Nat} (h : SlowRun comps cb phases p) :
    p.Inv comps cb := by
  induction h with
  | start => exact Progress.inv_empty
  | init _ hopt hc _ ih =>
      have hscan := (scanRun_blocked hacc.nodup hopt).inv (fun _ => blocked_mem) ih
      exact hscan.call_next hacc (Progress.skipAll_called ..) hc
  | again _ hopt _ ih => exact (scanRun_blocked hacc.nodup hopt).inv (fun _ => blocked_mem) ih
  | phase _ _ ih => exact ih

/-- The slow pass goes on past optional components only. -/
theorem SlowRun.optional {phases : List Nat} (h : SlowRun comps cb phases p) :
    ∀ c ∈ p.skipped, c.policy ≠ policyRequired := by
  have happend : ∀ {p : Progress} {b : List ComponentDesc},
      (∀ c ∈ p.skipped, c.policy ≠ policyRequired) → (∀ c ∈ b, c.policy ≠ policyRequired) →
      ∀ c ∈ (p.skipAll b).skipped, c.policy ≠ policyRequired := by
    intro p b hp hb c hc
    rcases List.mem_append.mp hc with hc | hc
    · exact hp c hc
    · exact hb c hc
  induction h with
  | start => simp
  | init _ hopt _ _ ih => exact happend ih hopt
  | again _ hopt _ ih => exact happend ih hopt
  | phase _ _ ih => exact ih

end SlowPass

end Component
end AppCore
