/-
  AppCore.Component.Confluence

  When every round of the slow pass is order-free, the initialization pass ends the same
  way for every order of the table.  A pass over any order follows the slow pass: it has
  made the same init calls and has skipped what the slow pass has skipped, and of the
  components it has skipped in advance each one is threatened in the slow pass.
-/

import AppCore.Component.SlowPass

namespace AppCore
namespace Component

section Confluence

variable {comps : List ComponentDesc} {cb : Callbacks} {phase : Nat} {phases : List Nat}
  {p p' q q' e e' : Progress} {c : ComponentDesc} {d : UInt32} {r r' : SysErr}

/-! ## Progress up to the order of the skips -/

/-- The same init calls, and the same components skipped. -/
structure Progress.Same (p q : Progress) : Prop where
  called : q.called = p.called
  skipped : ∀ c, c ∈ q.skipped ↔ c ∈ p.skipped

namespace Progress.Same

theorem refl (p : Progress) : p.Same p := ⟨rfl, fun _ => Iff.rfl⟩

theorem symm (h : p.Same q) : q.Same p := ⟨h.called.symm, fun c => (h.skipped c).symm⟩

theorem trans {s : Progress} (h : p.Same q) (h' : q.Same s) : p.Same s :=
  ⟨h'.called.trans h.called, fun c => (h'.skipped c).trans (h.skipped c)⟩

theorem ids_skipped (h : p.Same q) : d ∈ ids q.skipped ↔ d ∈ ids p.skipped := by
  simp only [ids, List.mem_map, h.skipped]

theorem down_iff (h : p.Same q) : q.Down cb d ↔ p.Down cb d := by
  rw [Progress.Down, Progress.Down, h.called, h.ids_skipped]

theorem pending_iff (h : p.Same q) : q.Pending c ↔ p.Pending c := by
  rw [Progress.Pending, Progress.Pending, h.called, h.ids_skipped]

theorem doomed_iff (h : p.Same q) : q.Doomed cb c ↔ p.Doomed cb c := by
  simp only [Progress.Doomed, h.called, h.down_iff]

theorem blocked_iff (h : p.Same q) : Blocked cb phase q c ↔ Blocked cb phase p c := by
  rw [Blocked, Blocked, h.pending_iff, h.doomed_iff]

theorem skip (h : p.Same q) (c : ComponentDesc) : (p.skip c).Same (q.skip c) where
  called := h.called
  skipped e := by
    simp only [Progress.skip_skipped, List.mem_append, h.skipped]

theorem call (h : p.Same q) (c : ComponentDesc) : (p.call c).Same (q.call c) where
  called := by rw [Progress.call_called, Progress.call_called, h.called]
  skipped := h.skipped

theorem runtime_eq (h : p.Same q) (id : UInt32) : q.runtime cb id = p.runtime cb id := by
  simp only [Progress.runtime, h.ids_skipped, h.called]

end Progress.Same

/-! ## Following the slow pass -/

/-- A pass at `q` follows the slow pass at `p`: it has made the same calls, and what it has
    skipped in advance belongs to the current phase. -/
structure Follows (comps : List ComponentDesc) (cb : Callbacks) (phases : List Nat)
    (p q : Progress) : Prop where
  inv : q.Inv comps cb
  called : q.called = p.called
  skipped : ∀ c ∈ p.skipped, c ∈ q.skipped
  ahead : ∀ c ∈ q.skipped, c ∉ p.skipped → phases.head? = some c.phase

/-- More skips doom no fewer components. -/
theorem Progress.Doomed.mono (hcalled : q.called = p.called)
    (hskipped : ∀ c ∈ p.skipped, c ∈ q.skipped) (h : p.Doomed cb c) : q.Doomed cb c := by
  obtain ⟨pre, d, post, heq, hpre, hd⟩ := h
  refine ⟨pre, d, post, heq, ?_, ?_⟩
  · rw [hcalled]
    exact hpre
  · rcases hd with hd | hd
    · left
      rw [hcalled]
      exact hd
    · obtain ⟨e, he, rfl⟩ := List.mem_map.mp hd
      exact Or.inr (mem_ids_of_mem (hskipped e he))

theorem Progress.Inv.skipped_of_id (hnd : (ids comps).Nodup) (hq : q.Inv comps cb)
    (hc : c ∈ comps) (h : c.id ∈ ids q.skipped) : c ∈ q.skipped := by
  obtain ⟨e, he, hid⟩ := List.mem_map.mp h
  rw [← eq_of_id_eq hnd (hq.skipped_mem e he) hc hid]
  exact he

theorem Follows.pending_of_ahead (hnd : (ids comps).Nodup)
    (h : Follows comps cb phases p q) (hc : c ∈ q.skipped) (hnot : c ∉ p.skipped) :
    p.Pending c := by
  constructor
  · rw [← h.called]
    exact fun hm => h.inv.disjoint _ hm (mem_ids_of_mem hc)
  · intro hm
    obtain ⟨e, he, hid⟩ := List.mem_map.mp hm
    have heq := eq_of_id_eq hnd (h.inv.skipped_mem e (h.skipped e he)) (h.inv.skipped_mem c hc)
      hid
    exact hnot (heq ▸ he)

/-- What is skipped in advance is threatened. -/
theorem Follows.threatened (hnd : (ids comps).Nodup)
    (h : Follows comps cb (phase :: phases) p q) (hc : c ∈ q.skipped) (hnot : c ∉ p.skipped) :
    Threatened comps cb phase p c := by
  -- along the list of skips: the cause of each skip precedes it
  have hpre : ∀ pre post, q.skipped = pre ++ post →
      ∀ c ∈ pre, c ∉ p.skipped → Threatened comps cb phase p c := by
    intro pre
    induction pre using List.reverseRecOn with
    | nil => simp
    | append_singleton pre x ih =>
        intro post heq c hc hnot
        have heq' : q.skipped = pre ++ x :: post := by simpa using heq
        have hrec := ih (x :: post) heq'
        rcases List.mem_append.mp hc with hc | hc
        · exact hrec c hc hnot
        · rw [List.mem_singleton.mp hc] at hnot ⊢
          have hx : x ∈ q.skipped := by rw [heq']; simp
          have hmem : x ∈ comps := h.inv.skipped_mem x hx
          have hpend := h.pending_of_ahead hnd hx hnot
          have hph : x.phase = phase := by
            have := h.ahead x hx hnot
            simpa using this.symm
          obtain ⟨a, d, b, hdeps, ha, hd⟩ := h.inv.skipped_doomed pre x post heq'
          have ha : ∀ y ∈ a, InitDone cb p.called y := by
            rw [← h.called]
            exact ha
          have hdown : p.Down cb d → Threatened comps cb phase p x := fun hd =>
            Threatened.base (mem_blocked.mpr ⟨hmem, hpend, hph, a, d, b, hdeps, ha, hd⟩)
          rcases hd with hd | hd
          · refine hdown (Or.inl ?_)
            rw [← h.called]
            exact hd
          · obtain ⟨f, hf, rfl⟩ := List.mem_map.mp hd
            by_cases hfp : f ∈ p.skipped
            · exact hdown (Or.inr (mem_ids_of_mem hfp))
            · exact Threatened.next hmem hpend hph (hrec f hf hfp) hdeps ha
  exact hpre q.skipped [] (by simp) c hc hnot

/-- The first component skipped in advance is blocked. -/
theorem Follows.first_ahead (hnd : (ids comps).Nodup)
    (h : Follows comps cb (phase :: phases) p q) (hc : c ∈ q.skipped) (hnot : c ∉ p.skipped) :
    ∃ x ∈ q.skipped, x ∈ blocked comps cb phase p := by
  obtain ⟨pre, x, post, heq, hpre, hx⟩ : ∃ pre x post, q.skipped = pre ++ x :: post ∧
      (∀ y ∈ pre, y ∈ p.skipped) ∧ x ∉ p.skipped :=
    exists_first_not fun hall => hnot (hall c hc)
  have hmem : x ∈ q.skipped := by rw [heq]; simp
  have hph : x.phase = phase := by
    have := h.ahead x hmem hx
    simpa using this.symm
  have hdoom : p.Doomed cb x :=
    Progress.Doomed.mono (p := { q with skipped := pre }) h.called.symm hpre
      (h.inv.skipped_doomed pre x post heq)
  exact ⟨x, hmem, mem_blocked.mpr
    ⟨h.inv.skipped_mem x hmem, h.pending_of_ahead hnd hmem hx, hph, hdoom⟩⟩

section Scan

variable {l : List ComponentDesc} {o : Option ComponentDesc}

/-- A scan keeps following. -/
theorem Follows.scan (h : Follows comps cb (phase :: phases) p q) (hl : l.Perm comps)
    (hscan : ScanRun cb phase l q o q') : Follows comps cb (phase :: phases) p q' := by
  obtain ⟨new, hnew, hph⟩ := hscan.skipped_append
  constructor
  · exact hscan.inv (fun c hc => hl.mem_iff.mp hc) h.inv
  · rw [hscan.called_eq, h.called]
  · intro c hc
    rw [hnew]
    exact List.mem_append_left _ (h.skipped c hc)
  · intro c hc hnot
    rw [hnew] at hc
    rcases List.mem_append.mp hc with hc | hc
    · exact h.ahead c hc hnot
    · rw [(hph c hc).2]
      rfl

/-- A scan that runs to its end has skipped what was blocked. -/
theorem Follows.scan_blocked (hnd : (ids comps).Nodup)
    (h : Follows comps cb (phase :: phases) p q) (hl : l.Perm comps)
    (hscan : ScanRun cb phase l q none q') (hc : c ∈ blocked comps cb phase p) :
    c ∈ q'.skipped := by
  obtain ⟨hmem, hpend, hph, hdoom⟩ := mem_blocked.mp hc
  have hf := h.scan hl hscan
  have hres := hscan.not_pending_of_doomed rfl (hl.mem_iff.mpr hmem) hph
    (hdoom.mono h.called h.skipped)
  refine hf.inv.skipped_of_id hnd hmem ?_
  by_contra hs
  refine hres ⟨?_, hs⟩
  rw [hf.called]
  exact hpend.1

/-- After the scan the slow round is behind. -/
theorem Follows.scan_round (hnd : (ids comps).Nodup)
    (h : Follows comps cb (phase :: phases) p q) (hl : l.Perm comps)
    (hscan : ScanRun cb phase l q none q') :
    Follows comps cb (phase :: phases) (p.skipAll (blocked comps cb phase p)) q' := by
  have hf := h.scan hl hscan
  refine ⟨hf.inv, hf.called, ?_, ?_⟩
  · intro c hc
    rcases List.mem_append.mp hc with hc | hc
    · exact hf.skipped c hc
    · exact h.scan_blocked hnd hl hscan hc
  · exact fun c hc hnot => hf.ahead c hc fun hp => hnot (List.mem_append_left _ hp)

/-- The init call after the scan. -/
theorem Follows.call (hacc : Accepted comps) (h : Follows comps cb phases p q)
    (hc : nextInit comps cb phase p.called = some c) :
    Follows comps cb phases (p.call c) (q.call c) where
  inv := h.inv.call_next hacc h.called hc
  called := by rw [Progress.call_called, Progress.call_called, h.called]
  skipped := h.skipped
  ahead := h.ahead

/-- The next init is that of the slow pass. -/
theorem Follows.next_init (hacc : Accepted comps) (h : Follows comps cb phases p q)
    (hl : l.Perm comps) (hc : nextInit comps cb phase p.called = some c) :
    nextInit l cb phase q.called = some c ∧ q.Pending c := by
  rw [← h.called] at hc
  obtain ⟨hmem, hel, -⟩ := nextInit_eq_some hc
  exact ⟨(nextInit_of_perm hl hacc.nodup).trans hc, hel.pending hacc h.inv hmem⟩

/-- No scan stops when no required component is threatened. -/
theorem Follows.not_halted (hnd : (ids comps).Nodup)
    (hno : ∀ e, Threatened comps cb phase p e → e.policy ≠ policyRequired)
    (h : Follows comps cb (phase :: phases) p q)
    (hopt : ∀ c ∈ q.skipped, c.policy ≠ policyRequired) (hl : l.Perm comps) :
    ¬ ScanRun cb phase l q (some c) q' := by
  intro hscan
  obtain ⟨hmem, hreq⟩ := hscan.halted
  have hnot : c ∉ p.skipped := fun hc => hopt c (h.skipped c hc) hreq
  exact hno c ((h.scan hl hscan).threatened hnd hmem hnot) hreq

/-- Nothing blocked: nothing was skipped in advance. -/
theorem Follows.same (hnd : (ids comps).Nodup)
    (h : Follows comps cb (phase :: phases) p q) (hb : blocked comps cb phase p = []) :
    p.Same q := by
  refine ⟨h.called, fun c => ⟨fun hc => ?_, h.skipped c⟩⟩
  by_contra hnot
  obtain ⟨x, -, hx⟩ := h.first_ahead hnd hc hnot
  rw [hb] at hx
  cases hx

end Scan

/-! ## Runs of the remaining phases -/

section PassRun

variable {l : List ComponentDesc} {rest : List Nat}

/-- A pass that ends like another one from the phase on. -/
theorem PassRun.of_phase (h : PassRun l cb (phase :: rest) q r e)
    (hphase : ∀ r' s, PhaseRun l cb phase q r' s → PhaseRun l cb phase q' r' s) :
    PassRun l cb (phase :: rest) q' r e := by
  cases h with
  | error hrun hne => exact PassRun.error (hphase _ _ hrun) hne
  | next hrun hrest => exact PassRun.next (hphase _ _ hrun) hrest

theorem PassRun.of_phaseRun {s : Progress} (hrun : PhaseRun l cb phase q r' s)
    (hrest : r' = .ok → PassRun l cb rest s r e) (herr : r' ≠ .ok → r = r' ∧ e = s) :
    PassRun l cb (phase :: rest) q r e := by
  by_cases hr : r' = .ok
  · subst hr
    exact PassRun.next hrun (hrest rfl)
  · obtain ⟨rfl, rfl⟩ := herr hr
    exact PassRun.error hrun hr

/-- The first phase of a pass, and what comes after it. -/
theorem PassRun.cons_inv (h : PassRun l cb (phase :: rest) q r e) :
    ∃ r' s, PhaseRun l cb phase q r' s ∧ (r' = .ok → PassRun l cb rest s r e) ∧
      (r' ≠ .ok → r = r' ∧ e = s) := by
  cases h with
  | error hrun hne => exact ⟨r, e, hrun, fun h => absurd h hne, fun _ => ⟨rfl, rfl⟩⟩
  | next hrun hrest => exact ⟨.ok, _, hrun, fun _ => hrest, fun h => absurd rfl h⟩

end PassRun

/-! ## A chain of single blocked components -/

/-- One component is blocked at a time, and no init is called, up to a required one; `e` is
    the progress when it is skipped. -/
inductive Lone (comps : List ComponentDesc) (cb : Callbacks) (phase : Nat) :
    Progress → Progress → Prop
  | last {p : Progress} {c : ComponentDesc} :
      (∀ e, e ∈ blocked comps cb phase p ↔ e = c) → c.policy = policyRequired →
      Lone comps cb phase p (p.skip c)
  | step {p e : Progress} {c : ComponentDesc} :
      (∀ e, e ∈ blocked comps cb phase p ↔ e = c) →
      c.policy ≠ policyRequired → nextInit comps cb phase p.called = none →
      Lone comps cb phase (p.skip c) e → Lone comps cb phase p e

theorem Lone.exists_blocked (h : Lone comps cb phase p e) :
    ∃ c, c ∈ blocked comps cb phase p := by
  cases h with
  | last hb => exact ⟨_, (hb _).mpr rfl⟩
  | step hb => exact ⟨_, (hb _).mpr rfl⟩

/-- A scan moves along the chain, whatever the order. -/
theorem Lone.scan {l : List ComponentDesc} {o : Option ComponentDesc}
    (h : Lone comps cb phase p e) (hs : p.Same q) (hl : ∀ c ∈ l, c ∈ comps)
    (hscan : ScanRun cb phase l q o q') :
    (o = none → ∃ p', Lone comps cb phase p' e ∧ p'.Same q') ∧
      (∀ y, o = some y → e.Same q') := by
  induction hscan generalizing p with
  | nil q => exact ⟨fun _ => ⟨p, h, hs⟩, fun y hy => (by cases hy)⟩
  | keep _ _ ih => exact ih h hs fun c hc => hl c (List.mem_cons_of_mem _ hc)
  | @skip c rest q o q' hpend hph hdoom hopt _ ih =>
      have hb : c ∈ blocked comps cb phase p :=
        mem_blocked.mpr ⟨hl c (List.mem_cons_self ..), hs.blocked_iff.mp ⟨hpend, hph, hdoom⟩⟩
      cases h with
      | last huniq hreq =>
          obtain rfl := (huniq c).mp hb
          exact absurd hreq hopt
      | step huniq _ _ hrest =>
          obtain rfl := (huniq c).mp hb
          exact ih hrest (hs.skip c) fun x hx => hl x (List.mem_cons_of_mem _ hx)
  | @halt c rest q hpend hph hdoom hreq =>
      have hb : c ∈ blocked comps cb phase p :=
        mem_blocked.mpr ⟨hl c (List.mem_cons_self ..), hs.blocked_iff.mp ⟨hpend, hph, hdoom⟩⟩
      refine ⟨fun hn => (by cases hn), fun _ _ => ?_⟩
      cases h with
      | last huniq _ =>
          obtain rfl := (huniq c).mp hb
          exact hs.skip c
      | step huniq hopt =>
          obtain rfl := (huniq c).mp hb
          exact absurd hreq hopt

/-- A round at the start of the chain that runs to its end skips the first component. -/
theorem Lone.scan_first {l : List ComponentDesc} (hnd : (ids comps).Nodup)
    (hs : p.Same q) (hq : q.Inv comps cb) (hl : l.Perm comps)
    (hscan : ScanRun cb phase l q none q') (hc : c ∈ blocked comps cb phase p) :
    c ∈ q'.skipped ∧ c ∉ q.skipped := by
  have hf : Follows comps cb (phase :: []) p q :=
    ⟨hq, hs.called, fun c hc => (hs.skipped c).mpr hc, fun c hc hnot =>
      absurd ((hs.skipped c).mp hc) hnot⟩
  refine ⟨hf.scan_blocked hnd hl hscan hc, fun hm => ?_⟩
  exact (mem_blocked.mp hc).2.1.2 (mem_ids_of_mem ((hs.skipped c).mp hm))

/-- A phase at the start of the chain stops at its end. -/
theorem Lone.phaseRun {l : List ComponentDesc} (hacc : Accepted comps) (hl : l.Perm comps)
    (hrun : PhaseRun l cb phase q r q') (h : Lone comps cb phase p e) (hs : p.Same q)
    (hq : q.Inv comps cb) (hopt : ∀ c ∈ q.skipped, c.policy ≠ policyRequired) :
    r = .dependency ∧ e.Same q' := by
  have hmem : ∀ c ∈ l, c ∈ comps := fun c hc => hl.mem_iff.mp hc
  obtain ⟨c, hc⟩ := h.exists_blocked
  -- a round that calls an init is not on the chain
  have hinit : ∀ {s x}, ScanRun cb phase l q none s →
      nextInit l cb phase q.called = some x → False := by
    intro s x hscan hx
    cases h with
    | last huniq hreq =>
        obtain ⟨hs', -⟩ := Lone.scan_first hacc.nodup hs hq hl hscan ((huniq _).mpr rfl)
        exact hscan.optional hopt _ hs' hreq
    | step _ _ hnone =>
        rw [hs.called, nextInit_of_perm hl hacc.nodup, hnone] at hx
        cases hx
  induction hrun generalizing p c with
  | halt hscan => exact ⟨rfl, (h.scan hs hmem hscan).2 _ rfl⟩
  | done hscan _ =>
      obtain ⟨hin, hout⟩ := Lone.scan_first hacc.nodup hs hq hl hscan hc
      exact absurd hin hout
  | stuck hscan _ _ =>
      obtain ⟨hin, hout⟩ := Lone.scan_first hacc.nodup hs hq hl hscan hc
      exact absurd hin hout
  | @again q q₁ r q₂ hscan _ hnone hrest ih =>
      obtain ⟨p', hlone, hsame⟩ := (h.scan hs hmem hscan).1 rfl
      have hq₁ := hscan.inv hmem hq
      have hopt₁ := hscan.optional hopt
      obtain ⟨c', hc'⟩ := hlone.exists_blocked
      refine ih hlone hsame hq₁ hopt₁ c' hc' fun {s x} _ hx => ?_
      rw [hscan.called_eq, hnone] at hx
      cases hx
  | fail hscan hx => exact (hinit hscan hx).elim
  | next hscan hx => exact (hinit hscan hx).elim

/-- What has been skipped in advance is a part of the chain. -/
theorem Lone.advance (hnd : (ids comps).Nodup) (h : Lone comps cb phase p e)
    (hf : Follows comps cb (phase :: phases) p q)
    (hopt : ∀ c ∈ q.skipped, c.policy ≠ policyRequired) :
    ∃ p', Lone comps cb phase p' e ∧ p'.Same q := by
  -- nothing in advance when the blocked component is not in it
  have hsame : ∀ {p : Progress} {c : ComponentDesc}, Follows comps cb (phase :: phases) p q →
      (∀ e, e ∈ blocked comps cb phase p ↔ e = c) → c ∉ q.skipped → p.Same q := by
    intro p c hf huniq hc
    refine ⟨hf.called, fun x => ⟨fun hx => ?_, hf.skipped x⟩⟩
    by_contra hnot
    obtain ⟨y, hy, hb⟩ := hf.first_ahead hnd hx hnot
    rw [(huniq y).mp hb] at hy
    exact hc hy
  induction h with
  | @last p c huniq hreq =>
      exact ⟨p, Lone.last huniq hreq, hsame hf huniq fun hc => hopt c hc hreq⟩
  | @step p e c huniq hoptc hnone hrest ih =>
      by_cases hc : c ∈ q.skipped
      · refine ih ⟨hf.inv, hf.called, ?_, ?_⟩
        · intro x hx
          rcases List.mem_append.mp hx with hx | hx
          · exact hf.skipped x hx
          · rw [List.mem_singleton.mp hx]
            exact hc
        · exact fun x hx hnot => hf.ahead x hx fun hp => hnot (List.mem_append_left _ hp)
      · exact ⟨p, Lone.step huniq hoptc hnone hrest, hsame hf huniq hc⟩

/-! ## The pass is determined -/

/-- Every pass that follows the slow pass at `p` ends in the same way. -/
def Determined (comps : List ComponentDesc) (cb : Callbacks) (phases : List Nat)
    (p : Progress) : Prop :=
  ∃ (r : SysErr) (e : Progress), ∀ l q r' e', l.Perm comps → Follows comps cb phases p q →
    (∀ c ∈ q.skipped, c.policy ≠ policyRequired) → PassRun l cb phases q r' e' →
    r' = r ∧ e.Same e'

/-- What is left to do for the slow pass. -/
def slowMeasure (comps : List ComponentDesc) (phases : List Nat) (p : Progress) : Nat :=
  phases.length + (comps.filter fun c => p.Pending c).length

theorem slowMeasure_lt (hsub : ∀ x, p'.Pending x → p.Pending x) (hc : c ∈ comps)
    (hp : p.Pending c) (hp' : ¬ p'.Pending c) :
    slowMeasure comps phases p' < slowMeasure comps phases p := by
  have := length_filter_lt hsub hc hp hp'
  unfold slowMeasure
  omega

theorem Progress.Pending.of_skipAll {b : List ComponentDesc} (h : (p.skipAll b).Pending c) :
    p.Pending c :=
  Progress.Pending.of_append [] b (by simp) rfl h

theorem not_pending_skipAll {b : List ComponentDesc} (hc : c ∈ b) :
    ¬ (p.skipAll b).Pending c := by
  intro h
  apply h.2
  rw [Progress.skipAll_skipped, ids, List.map_append]
  exact List.mem_append_right _ (mem_ids_of_mem hc)

theorem slowMeasure_skipAll (hc : c ∈ blocked comps cb phase p) :
    slowMeasure comps phases (p.skipAll (blocked comps cb phase p)) <
      slowMeasure comps phases p :=
  slowMeasure_lt (fun _ h => h.of_skipAll) (blocked_mem hc) (mem_blocked.mp hc).2.1
    (not_pending_skipAll hc)

theorem slowMeasure_call (hacc : Accepted comps) (hp : p.Inv comps cb)
    {b : List ComponentDesc} (hc : nextInit comps cb phase p.called = some c) :
    slowMeasure comps phases ((p.skipAll b).call c) < slowMeasure comps phases p := by
  obtain ⟨hmem, hel, -⟩ := nextInit_eq_some hc
  refine slowMeasure_lt (fun x h => ?_) hmem (hel.pending hacc hp hmem) fun h => h.1 (by simp)
  exact Progress.Pending.of_skipAll
    (Progress.Pending.of_append [c] [] (p := p.skipAll b) rfl (by simp) h)

/-- A threatened component stays threatened while others are skipped. -/
theorem Threatened.skipAll {x : ComponentDesc} (hnd : (ids comps).Nodup)
    (h : Threatened comps cb phase p x) (hx : x ∉ blocked comps cb phase p) :
    Threatened comps cb phase (p.skipAll (blocked comps cb phase p)) x := by
  induction h with
  | base hb => exact absurd hb hx
  | @next x d pre post hmem hpend hph hd hdeps hpre ih =>
      have hpend' : (p.skipAll (blocked comps cb phase p)).Pending x := by
        refine ⟨hpend.1, fun hm => ?_⟩
        rw [Progress.skipAll_skipped, ids, List.map_append] at hm
        rcases List.mem_append.mp hm with hm | hm
        · exact hpend.2 hm
        · obtain ⟨y, hy, hid⟩ := List.mem_map.mp hm
          exact hx (eq_of_id_eq hnd (blocked_mem hy) hmem hid ▸ hy)
      by_cases hdb : d ∈ blocked comps cb phase p
      · refine Threatened.base (mem_blocked.mpr
          ⟨hmem, hpend', hph, pre, d.id, post, hdeps, hpre, Or.inr ?_⟩)
        rw [Progress.skipAll_skipped, ids, List.map_append]
        exact List.mem_append_right _ (mem_ids_of_mem hdb)
      · exact Threatened.next hmem hpend' hph (ih hdb) hdeps hpre

theorem blocked_eq_singleton (hnd : (ids comps).Nodup)
    (huniq : ∀ x, x ∈ blocked comps cb phase p ↔ x = c) : blocked comps cb phase p = [c] := by
  have hids : (ids (blocked comps cb phase p)).Nodup := blocked_nodup hnd
  have hnodup : (blocked comps cb phase p).Nodup := List.Nodup.of_map _ hids
  exact List.perm_singleton.mp
    ((List.perm_ext_iff_of_nodup hnodup (List.nodup_singleton c)).mpr fun x => by simp [huniq])

/-- When a required component is threatened, an order-free slow pass is on a chain. -/
theorem OrderFree.exists_lone (hacc : Accepted comps) (hfree : OrderFree comps cb)
    {rest : List Nat} {z : ComponentDesc} (hslow : SlowRun comps cb (phase :: rest) p)
    (hz : Threatened comps cb phase p z) (hreq : z.policy = policyRequired) :
    ∃ e, Lone comps cb phase p e := by
  generalize hn : slowMeasure comps (phase :: rest) p = n
  induction n using Nat.strong_induction_on generalizing p with
  | _ n ih =>
      rcases hfree phase rest p hslow with ⟨hno, -⟩ | ⟨c, huniq, hor⟩
      · exact absurd hreq (hno z hz)
      · by_cases hcreq : c.policy = policyRequired
        · exact ⟨_, Lone.last huniq hcreq⟩
        · have hnone := hor.resolve_left hcreq
          have hc : c ∈ blocked comps cb phase p := (huniq c).mpr rfl
          have hbc := blocked_eq_singleton hacc.nodup huniq
          have hzb : z ∉ blocked comps cb phase p := fun hzb => by
            rw [(huniq z).mp hzb] at hreq
            exact hcreq hreq
          have hopt : ∀ x ∈ blocked comps cb phase p, x.policy ≠ policyRequired := by
            intro x hx
            rw [(huniq x).mp hx]
            exact hcreq
          obtain ⟨e, hlone⟩ := ih _ (hn ▸ slowMeasure_skipAll hc) (hslow.again hopt hnone)
            (hz.skipAll hacc.nodup hzb) rfl
          rw [hbc, Progress.skipAll_cons, Progress.skipAll_nil] at hlone
          exact ⟨e, Lone.step huniq hcreq hnone hlone⟩

section Rounds

variable {l : List ComponentDesc} {rest : List Nat}

/-- The scan of a round that cannot stop. -/
theorem Follows.exists_scan (hnd : (ids comps).Nodup)
    (hno : ∀ e, Threatened comps cb phase p e → e.policy ≠ policyRequired)
    (h : Follows comps cb (phase :: rest) p q)
    (hopt : ∀ c ∈ q.skipped, c.policy ≠ policyRequired) (hl : l.Perm comps) :
    ∃ s, ScanRun cb phase l q none s := by
  obtain ⟨o, s, hscan⟩ := ScanRun.total cb phase l q
  cases o with
  | none => exact ⟨s, hscan⟩
  | some y => exact absurd hscan (h.not_halted hnd hno hopt hl)

/-- A round without an init and without a danger of stopping: the pass goes on from a state
    that follows the next slow round. -/
theorem Follows.pass_again (hacc : Accepted comps)
    (hno : ∀ e, Threatened comps cb phase p e → e.policy ≠ policyRequired)
    (hnone : nextInit comps cb phase p.called = none)
    (h : Follows comps cb (phase :: rest) p q)
    (hopt : ∀ c ∈ q.skipped, c.policy ≠ policyRequired) (hl : l.Perm comps)
    (hpass : PassRun l cb (phase :: rest) q r e) :
    ∃ q₂, Follows comps cb (phase :: rest) (p.skipAll (blocked comps cb phase p)) q₂ ∧
      (∀ c ∈ q₂.skipped, c.policy ≠ policyRequired) ∧ PassRun l cb (phase :: rest) q₂ r e := by
  obtain ⟨r', s, hrun, hok, herr⟩ := hpass.cons_inv
  obtain ⟨q', hscan⟩ := h.exists_scan hacc.nodup hno hopt hl
  have hround := h.scan_round hacc.nodup hl hscan
  rw [← h.called, ← nextInit_of_perm hl hacc.nodup] at hnone
  rcases hrun.inv_none hscan hnone with ⟨-, hrest⟩ | ⟨rfl, -⟩
  · exact ⟨q', hround, hscan.optional hopt, PassRun.of_phaseRun hrest hok herr⟩
  · exact ⟨q', hround, hopt, hpass⟩

/-- A round with an init that does not fail for good. -/
theorem Follows.pass_init (hacc : Accepted comps)
    (hno : ∀ e, Threatened comps cb phase p e → e.policy ≠ policyRequired)
    (hc : nextInit comps cb phase p.called = some c)
    (hgood : ¬ (cb.init c.id ≠ .ok ∧ c.policy = policyRequired))
    (h : Follows comps cb (phase :: rest) p q)
    (hopt : ∀ c ∈ q.skipped, c.policy ≠ policyRequired) (hl : l.Perm comps)
    (hpass : PassRun l cb (phase :: rest) q r e) :
    ∃ q₂, Follows comps cb (phase :: rest) ((p.skipAll (blocked comps cb phase p)).call c) q₂ ∧
      (∀ c ∈ q₂.skipped, c.policy ≠ policyRequired) ∧ PassRun l cb (phase :: rest) q₂ r e := by
  obtain ⟨r', s, hrun, hok, herr⟩ := hpass.cons_inv
  obtain ⟨q', hscan⟩ := h.exists_scan hacc.nodup hno hopt hl
  obtain ⟨hnext, hpend⟩ := h.next_init hacc hl hc
  rcases hrun.inv_init hscan hnext hpend with ⟨hne, hreq, -⟩ | ⟨-, hrest⟩
  · exact absurd ⟨hne, hreq⟩ hgood
  · exact ⟨_, (h.scan_round hacc.nodup hl hscan).call hacc hc, hscan.optional hopt,
      PassRun.of_phaseRun hrest hok herr⟩

/-- A round with a required init that fails, when all that is threatened is blocked. -/
theorem Follows.pass_fail (hacc : Accepted comps)
    (hno : ∀ e, Threatened comps cb phase p e → e.policy ≠ policyRequired)
    (hall : ∀ e, Threatened comps cb phase p e → e ∈ blocked comps cb phase p)
    (hc : nextInit comps cb phase p.called = some c)
    (hne : cb.init c.id ≠ .ok) (hreq : c.policy = policyRequired)
    (h : Follows comps cb (phase :: rest) p q)
    (hopt : ∀ c ∈ q.skipped, c.policy ≠ policyRequired) (hl : l.Perm comps)
    (hpass : PassRun l cb (phase :: rest) q r e) :
    r = cb.init c.id ∧ ((p.skipAll (blocked comps cb phase p)).call c).Same e := by
  obtain ⟨r', s, hrun, hok, herr⟩ := hpass.cons_inv
  obtain ⟨q', hscan⟩ := h.exists_scan hacc.nodup hno hopt hl
  obtain ⟨hnext, hpend⟩ := h.next_init hacc hl hc
  rcases hrun.inv_init hscan hnext hpend with ⟨-, -, rfl, rfl⟩ | ⟨hgood, -⟩
  · obtain ⟨rfl, rfl⟩ := herr hne
    have hsame : (p.skipAll (blocked comps cb phase p)).Same q' := by
      refine ⟨(h.scan hl hscan).called, fun x => ⟨fun hx => ?_, ?_⟩⟩
      · by_cases hxp : x ∈ p.skipped
        · exact List.mem_append_left _ hxp
        · exact List.mem_append_right _
            (hall x ((h.scan hl hscan).threatened hacc.nodup hx hxp))
      · exact (h.scan_round hacc.nodup hl hscan).skipped x
    exact ⟨rfl, hsame.call c⟩
  · exact absurd ⟨hne, hreq⟩ hgood

/-- Nothing is blocked and no init is left: the phase is over. -/
theorem Follows.phase_settled (hacc : Accepted comps) (hb : blocked comps cb phase p = [])
    (hnone : nextInit comps cb phase p.called = none)
    (h : Follows comps cb (phase :: rest) p q) (hl : l.Perm comps)
    (hrun : PhaseRun l cb phase q r q') :
    q' = q ∧ ((r = .ok ∧ ∀ c ∈ comps, c.phase = phase → ¬ p.Pending c) ∨
      (r = .dependency ∧ ∃ c ∈ comps, c.phase = phase ∧ p.Pending c)) := by
  have hsame := h.same hacc.nodup hb
  have hnb : ∀ c ∈ l, ¬ Blocked cb phase q c := by
    intro c hc hbl
    have : c ∈ blocked comps cb phase p :=
      mem_blocked.mpr ⟨hl.mem_iff.mp hc, hsame.blocked_iff.mp hbl⟩
    rw [hb] at this
    cases this
  rw [← h.called, ← nextInit_of_perm hl hacc.nodup] at hnone
  rcases hrun.inv_none (ScanRun.of_not_blocked hnb) hnone with
    ⟨hne, -⟩ | ⟨-, rfl, ⟨rfl, hdone⟩ | ⟨rfl, c, hc, hph, hp⟩⟩
  · exact absurd rfl hne
  · refine ⟨rfl, Or.inl ⟨rfl, fun c hc hph hp => ?_⟩⟩
    exact hdone c (hl.mem_iff.mpr hc) hph (hsame.pending_iff.mpr hp)
  · exact ⟨rfl, Or.inr ⟨rfl, c, hl.mem_iff.mp hc, hph, hsame.pending_iff.mp hp⟩⟩

end Rounds

/-- From every state of an order-free slow pass on, the end is the same for all orders. -/
theorem OrderFree.determined (hacc : Accepted comps) (hfree : OrderFree comps cb)
    (hslow : SlowRun comps cb phases p) : Determined comps cb phases p := by
  -- every scan of the slow pass skips, initializes or ends its phase
  generalize hn : slowMeasure comps phases p = n
  induction n using Nat.strong_induction_on generalizing phases p with
  | _ n ih =>
      cases phases with
      | nil =>
          refine ⟨.ok, p, fun l q r e _ hf _ hpass => ?_⟩
          cases hpass
          refine ⟨rfl, hf.called, fun c => ⟨fun hc => ?_, hf.skipped c⟩⟩
          by_contra hnot
          exact absurd (hf.ahead c hc hnot) (by simp)
      | cons phase rest =>
          have hinv := hslow.inv hacc
          have hdet := hfree phase rest p hslow
          by_cases hno : ∀ e, Threatened comps cb phase p e → e.policy ≠ policyRequired
          · have hopt : ∀ c ∈ blocked comps cb phase p, c.policy ≠ policyRequired :=
              fun c hc => hno c (Threatened.base hc)
            cases hnext : nextInit comps cb phase p.called with
            | some c =>
                by_cases hbad : cb.init c.id ≠ .ok ∧ c.policy = policyRequired
                · -- the init after this scan fails for good
                  have hall : ∀ e, Threatened comps cb phase p e →
                      e ∈ blocked comps cb phase p := by
                    rcases hdet with ⟨-, hall⟩ | ⟨x, huniq, hx | hx⟩
                    · exact hall c hnext hbad.1 hbad.2
                    · exact absurd hx (hopt x ((huniq x).mpr rfl))
                    · rw [hnext] at hx
                      cases hx
                  exact ⟨_, _, fun l q r e hl hf hq hpass =>
                    hf.pass_fail hacc hno hall hnext hbad.1 hbad.2 hq hl hpass⟩
                · -- every order comes to this init
                  obtain ⟨r, e, hend⟩ := ih _ (hn ▸ slowMeasure_call hacc hinv hnext)
                    (hslow.init hopt hnext hbad) rfl
                  refine ⟨r, e, fun l q r' e' hl hf hq hpass => ?_⟩
                  obtain ⟨q₂, hf₂, hq₂, hpass₂⟩ :=
                    hf.pass_init hacc hno hnext hbad hq hl hpass
                  exact hend l q₂ r' e' hl hf₂ hq₂ hpass₂
            | none =>
                by_cases hb : blocked comps cb phase p = []
                · by_cases hpend : ∀ c ∈ comps, c.phase = phase → ¬ p.Pending c
                  · -- the next phase
                    have hlt : slowMeasure comps rest p < n := by
                      rw [← hn]
                      unfold slowMeasure
                      rw [List.length_cons]
                      omega
                    obtain ⟨r, e, hend⟩ := ih _ hlt (hslow.phase hpend) rfl
                    refine ⟨r, e, fun l q r' e' hl hf hq hpass => ?_⟩
                    obtain ⟨r₁, s, hrun, hok, -⟩ := hpass.cons_inv
                    obtain ⟨rfl, ⟨hr, -⟩ | ⟨-, c, hc, hph, hp⟩⟩ :=
                      hf.phase_settled hacc hb hnext hl hrun
                    · have hsame := hf.same hacc.nodup hb
                      refine hend l s r' e' hl ⟨hf.inv, hf.called, hf.skipped, ?_⟩ hq (hok hr)
                      exact fun c hc hnot => absurd ((hsame.skipped c).mp hc) hnot
                    · exact absurd hp (hpend c hc hph)
                  · -- the phase is stuck
                    refine ⟨.dependency, p, fun l q r e hl hf hq hpass => ?_⟩
                    obtain ⟨r₁, s, hrun, -, herr⟩ := hpass.cons_inv
                    obtain ⟨rfl, ⟨-, hp⟩ | ⟨hr, -⟩⟩ := hf.phase_settled hacc hb hnext hl hrun
                    · exact absurd hp hpend
                    · obtain ⟨rfl, rfl⟩ := herr (by rw [hr]; decide)
                      exact ⟨hr, hf.same hacc.nodup hb⟩
                · -- a scan that only skips; another order may have skipped more
                  obtain ⟨c, hc⟩ := List.exists_mem_of_ne_nil _ hb
                  obtain ⟨r, e, hend⟩ := ih _ (hn ▸ slowMeasure_skipAll hc)
                    (hslow.again hopt hnext) rfl
                  refine ⟨r, e, fun l q r' e' hl hf hq hpass => ?_⟩
                  obtain ⟨q₂, hf₂, hq₂, hpass₂⟩ := hf.pass_again hacc hno hnext hq hl hpass
                  exact hend l q₂ r' e' hl hf₂ hq₂ hpass₂
          · -- a required component is threatened: every order stops at it
            push Not at hno
            obtain ⟨z, hz, hreq⟩ := hno
            obtain ⟨e, hlone⟩ := hfree.exists_lone hacc hslow hz hreq
            refine ⟨.dependency, e, fun l q r e' hl hf hq hpass => ?_⟩
            obtain ⟨p', hlone', hsame⟩ := hlone.advance hacc.nodup hf hq
            obtain ⟨r₁, s, hrun, -, herr⟩ := hpass.cons_inv
            obtain ⟨rfl, hend⟩ := hlone'.phaseRun hacc hl hrun hsame hf.inv hq
            obtain ⟨rfl, rfl⟩ := herr (by decide)
            exact ⟨rfl, hend⟩

/-- Two passes over two orders of the table end in the same way. -/
theorem OrderFree.passes_agree (hacc : Accepted comps) (hfree : OrderFree comps cb)
    {l l' : List ComponentDesc} (hl : l.Perm comps) (hl' : l'.Perm comps)
    (h : PassRun l cb (List.range phaseCount) {} r e)
    (h' : PassRun l' cb (List.range phaseCount) {} r' e') : r' = r ∧ e.Same e' := by
  obtain ⟨r₀, e₀, hend⟩ := hfree.determined hacc SlowRun.start
  have hf : Follows comps cb (List.range phaseCount) {} {} :=
    ⟨Progress.inv_empty, rfl, fun _ hc => hc, fun c hc => by cases hc⟩
  obtain ⟨rfl, hs⟩ := hend l {} r e hl hf (fun c hc => by cases hc) h
  obtain ⟨rfl, hs'⟩ := hend l' {} r' e' hl' hf (fun c hc => by cases hc) h'
  exact ⟨rfl, hs.symm.trans hs'⟩

end Confluence

end Component
end AppCore
