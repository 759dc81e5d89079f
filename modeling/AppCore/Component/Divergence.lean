/-
  AppCore.Component.Divergence

  The other direction: when a round of the slow pass is not order-free, two orders of the
  table end the initialization pass in different ways.  An order that lists the components
  in the reverse of the rounds in which the slow pass skips them makes the program follow
  the slow pass (`SlowRun.lift`); in the round in question the rest of the table can then be
  put in the order that skips a whole chain at once, or in another one.
-/

import AppCore.Component.Confluence

namespace AppCore
namespace Component

section Divergence

variable {comps : List ComponentDesc} {cb : Callbacks} {phase : Nat} {rest : List Nat}
  {p q e : Progress} {c : ComponentDesc} {r : SysErr}

/-- The rest of a table, in front of the components in `order`. -/
theorem exists_front (hnd : comps.Nodup) {ch order : List ComponentDesc} (hch : ch.Nodup)
    (hord : order.Nodup) (hsub : ∀ c ∈ ch, c ∈ comps) (hord_sub : ∀ c ∈ order, c ∈ comps)
    (hdisj : ∀ c ∈ ch, c ∉ order) :
    ∃ X, (∀ c ∈ X, c ∈ comps ∧ c ∉ ch) ∧ (ch ++ X ++ order).Perm comps ∧
      (X ++ ch ++ order).Perm comps := by
  let X := comps.filter fun c => c ∉ ch ∧ c ∉ order
  have hmem : ∀ c, c ∈ X ↔ c ∈ comps ∧ c ∉ ch ∧ c ∉ order := by
    intro c
    simp [X]
  have hnodup : (ch ++ X ++ order).Nodup := by
    refine List.nodup_append.mpr ⟨List.nodup_append.mpr ⟨hch, hnd.filter _, ?_⟩, hord, ?_⟩
    · rintro a ha b hb rfl
      exact ((hmem a).mp hb).2.1 ha
    · rintro a ha b hb rfl
      rcases List.mem_append.mp ha with ha | ha
      · exact hdisj a ha hb
      · exact ((hmem a).mp ha).2.2 hb
  have hperm : (ch ++ X ++ order).Perm comps := by
    refine (List.perm_ext_iff_of_nodup hnodup hnd).mpr fun c => ?_
    simp only [List.mem_append, hmem]
    constructor
    · rintro ((hc | hc) | hc)
      · exact hsub c hc
      · exact hc.1
      · exact hord_sub c hc
    · intro hc
      by_cases h1 : c ∈ ch
      · exact Or.inl (Or.inl h1)
      · by_cases h2 : c ∈ order
        · exact Or.inr h2
        · exact Or.inl (Or.inr ⟨hc, h1, h2⟩)
  refine ⟨X, fun c hc => ⟨((hmem c).mp hc).1, ((hmem c).mp hc).2.1⟩, hperm, ?_⟩
  exact (List.perm_append_comm.append_right order).trans hperm

/-! ## Following the slow pass exactly -/

section Lift

variable {l front order : List ComponentDesc}

theorem PassRun.of_next {p' : Progress} (hscan : ScanRun cb phase l p none p')
    (hc : nextInit l cb phase p.called = some c)
    (hgood : ¬ (cb.init c.id ≠ .ok ∧ c.policy = policyRequired))
    (h : PassRun l cb (phase :: rest) (p'.call c) r e) : PassRun l cb (phase :: rest) p r e :=
  h.of_phase fun _ _ hrun => PhaseRun.next hscan hc hgood hrun

theorem PassRun.of_again {p' : Progress} (hscan : ScanRun cb phase l p none p')
    (hne : p' ≠ p) (hc : nextInit l cb phase p.called = none)
    (h : PassRun l cb (phase :: rest) p' r e) : PassRun l cb (phase :: rest) p r e :=
  h.of_phase fun _ _ hrun => PhaseRun.again hscan hne hc hrun

/-- A scan that finds the blocked components at the end of the table, in front of what is
    resolved, skips them and no others. -/
theorem scanRun_slow (hnd : (ids comps).Nodup)
    (hopt : ∀ x ∈ blocked comps cb phase p, x.policy ≠ policyRequired)
    (hord : ∀ x ∈ order, ¬ p.Pending x)
    (hperm : (front ++ blocked comps cb phase p ++ order).Perm comps) :
    ScanRun cb phase (front ++ blocked comps cb phase p ++ order) p none
      (p.skipAll (blocked comps cb phase p)) := by
  have hnodup : (front ++ blocked comps cb phase p ++ order).Nodup :=
    hperm.nodup_iff.mpr (List.Nodup.of_map _ hnd)
  have hfront : ∀ x ∈ front, ¬ Blocked cb phase p x := by
    intro x hx hb
    have hmem : x ∈ comps :=
      hperm.mem_iff.mp (List.mem_append_left _ (List.mem_append_left _ hx))
    obtain ⟨h1, -⟩ := List.nodup_append.mp hnodup
    exact (List.nodup_append.mp h1).2.2 x hx x (mem_blocked.mpr ⟨hmem, hb⟩) rfl
  have hlast : ∀ x ∈ order, ¬ Blocked cb phase (p.skipAll (blocked comps cb phase p)) x :=
    fun x hx hb => hord x hx hb.1.of_skipAll
  have hmid : ScanRun cb phase (blocked comps cb phase p) p none
      (p.skipAll (blocked comps cb phase p)) := scanRun_blocked hnd hopt
  exact ((ScanRun.of_not_blocked hfront).append hmid).append (ScanRun.of_not_blocked hlast)

/-- A state of the slow pass is reached by the program when the table ends with the
    resolved components, the latest first. -/
theorem SlowRun.lift (hacc : Accepted comps) {phases : List Nat}
    (h : SlowRun comps cb phases p) :
    ∃ order : List ComponentDesc, order.Nodup ∧ (∀ x ∈ order, x ∈ comps ∧ ¬ p.Pending x) ∧
      ∀ front r e, (front ++ order).Perm comps → PassRun (front ++ order) cb phases p r e →
        PassRun (front ++ order) cb (List.range phaseCount) {} r e := by
  -- one more round of skips in front of the order so far
  have hround : ∀ {phase : Nat} {p : Progress} {order : List ComponentDesc}, order.Nodup →
      (∀ x ∈ order, x ∈ comps ∧ ¬ p.Pending x) →
      (blocked comps cb phase p ++ order).Nodup ∧
        ∀ x ∈ blocked comps cb phase p ++ order,
          x ∈ comps ∧ ¬ (p.skipAll (blocked comps cb phase p)).Pending x := by
    intro phase p order hnd hmem
    have hb : (blocked comps cb phase p).Nodup := List.Nodup.of_map _ (blocked_nodup hacc.nodup)
    constructor
    · refine List.nodup_append.mpr ⟨hb, hnd, ?_⟩
      rintro a ha b hb rfl
      exact (hmem a hb).2 (mem_blocked.mp ha).2.1
    · intro x hx
      rcases List.mem_append.mp hx with hx | hx
      · exact ⟨blocked_mem hx, not_pending_skipAll hx⟩
      · exact ⟨(hmem x hx).1, fun hp => (hmem x hx).2 hp.of_skipAll⟩
  induction h with
  | start => exact ⟨[], List.nodup_nil, by simp, fun _ _ _ _ h => h⟩
  | @init phase rest p c hslow hopt hc hgood ih =>
      obtain ⟨order, hnd, hmem, hlift⟩ := ih
      obtain ⟨hnd', hmem'⟩ := hround hnd hmem
      refine ⟨_, hnd', fun x hx => ⟨(hmem' x hx).1, fun hp => (hmem' x hx).2 ?_⟩, ?_⟩
      · exact Progress.Pending.of_append [c] [] rfl (by simp) hp
      · intro front r e hperm hrun
        rw [← List.append_assoc] at hperm hrun ⊢
        have hscan := scanRun_slow hacc.nodup hopt (fun x hx => (hmem x hx).2) hperm
        rw [← nextInit_of_perm hperm hacc.nodup] at hc
        exact hlift _ r e hperm (PassRun.of_next hscan hc hgood hrun)
  | @again phase rest p hslow hopt hnone ih =>
      obtain ⟨order, hnd, hmem, hlift⟩ := ih
      obtain ⟨hnd', hmem'⟩ := hround hnd hmem
      refine ⟨_, hnd', hmem', ?_⟩
      intro front r e hperm hrun
      rw [← List.append_assoc] at hperm hrun ⊢
      have hscan := scanRun_slow hacc.nodup hopt (fun x hx => (hmem x hx).2) hperm
      rw [← nextInit_of_perm hperm hacc.nodup] at hnone
      by_cases hb : blocked comps cb phase p = []
      · rw [hb, Progress.skipAll_nil] at hrun
        rw [hb] at hperm ⊢
        exact hlift _ r e hperm hrun
      · refine hlift _ r e hperm (PassRun.of_again hscan ?_ hnone hrun)
        intro heq
        have hlen := congrArg (fun p => p.skipped.length) heq
        simp only [Progress.skipAll_skipped, List.length_append] at hlen
        exact hb (List.length_eq_zero_iff.mp (by omega))
  | @phase phase rest p hslow hdone ih =>
      obtain ⟨order, hnd, hmem, hlift⟩ := ih
      refine ⟨order, hnd, hmem, fun front r e hperm hrun => hlift front r e hperm ?_⟩
      have hkeep : ScanRun cb phase (front ++ order) p none p :=
        ScanRun.of_not_blocked fun x hx hb => hdone x (hperm.mem_iff.mp hx) hb.2.1 hb.1
      exact PassRun.next
        (PhaseRun.done hkeep fun x hx hph => hdone x (hperm.mem_iff.mp hx) hph) hrun

end Lift

/-! ## The first scan of a pass -/

section FirstScan

variable {l ch : List ComponentDesc} {y : ComponentDesc} {s : Progress}

theorem PassRun.first_scan (h : PassRun l cb (phase :: rest) p r e) :
    ∃ o s, ScanRun cb phase l p o s ∧ (∀ x ∈ s.skipped, x ∈ e.skipped) ∧
      (∀ y, o = some y → e = s) := by
  obtain ⟨r', s, hrun, hok, herr⟩ := h.cons_inv
  -- what the phase has skipped stays skipped
  have hkeep : ∀ x ∈ s.skipped, x ∈ e.skipped := by
    by_cases hr : r' = .ok
    · intro x hx
      have hlater : ∀ {phases p r e}, PassRun l cb phases p r e →
          ∀ x ∈ p.skipped, x ∈ e.skipped := by
        intro phases p r e h
        induction h with
        | nil => exact fun x hx => hx
        | error hrun _ =>
            obtain ⟨pc, ps, -, hps, -⟩ := hrun.append
            intro x hx
            rw [hps]
            exact List.mem_append_left _ hx
        | next hrun _ ih =>
            obtain ⟨pc, ps, -, hps, -⟩ := hrun.append
            intro x hx
            refine ih x ?_
            rw [hps]
            exact List.mem_append_left _ hx
      exact hlater (hok hr) x hx
    · obtain ⟨-, rfl⟩ := herr hr
      exact fun x hx => hx
  have hrest : ∀ {s' r''}, PhaseRun l cb phase s' r'' s → ∀ x ∈ s'.skipped, x ∈ e.skipped := by
    intro s' r'' hrun x hx
    obtain ⟨pc, ps, -, hps, -⟩ := hrun.append
    refine hkeep x ?_
    rw [hps]
    exact List.mem_append_left _ hx
  cases hrun with
  | halt hscan =>
      obtain ⟨-, rfl⟩ := herr (by decide)
      exact ⟨_, _, hscan, hkeep, fun _ _ => rfl⟩
  | done hscan _ => exact ⟨_, _, hscan, hkeep, fun _ hy => by cases hy⟩
  | stuck hscan _ _ => exact ⟨_, _, hscan, hkeep, fun _ hy => by cases hy⟩
  | again hscan _ _ hrun => exact ⟨_, _, hscan, hrest hrun, fun _ hy => by cases hy⟩
  | fail hscan _ _ _ => exact ⟨_, _, hscan, hkeep, fun _ hy => by cases hy⟩
  | next hscan _ _ hrun =>
      exact ⟨_, _, hscan, fun x hx => hrest hrun x hx, fun _ hy => by cases hy⟩

/-- What a scan skips in the front part of the table is skipped when the pass ends. -/
theorem PassRun.skipped_of_front {X : List ComponentDesc} {o : Option ComponentDesc}
    (h : PassRun (ch ++ X) cb (phase :: rest) p r e) (hch : ScanRun cb phase ch p o s) :
    ∀ x ∈ s.skipped, x ∈ e.skipped := by
  obtain ⟨o', s', hscan, hkeep, -⟩ := h.first_scan
  exact fun x hx => hkeep x (hscan.skipped_of_front hch x hx)

/-- A scan that stops in the front part of the table ends the pass. -/
theorem PassRun.eq_of_front_halt {X : List ComponentDesc}
    (h : PassRun (ch ++ X) cb (phase :: rest) p r e)
    (hch : ScanRun cb phase ch p (some y) s) : e = s := by
  obtain ⟨o', s', hscan, -, hstop⟩ := h.first_scan
  obtain ⟨rfl, rfl⟩ := (hch.append_halt X).deterministic hscan
  exact hstop y rfl

/-- A pass makes the init calls it has started with, and more. -/
theorem PassRun.called_append {phases : List Nat} (h : PassRun l cb phases p r e) :
    ∃ pc, e.called = p.called ++ pc := by
  induction h with
  | nil p => exact ⟨[], by simp⟩
  | error hrun _ =>
      obtain ⟨pc, -, hpc, -⟩ := hrun.append
      exact ⟨pc, hpc⟩
  | next hrun _ ih =>
      obtain ⟨pc, -, hpc, -⟩ := hrun.append
      obtain ⟨pc', hpc'⟩ := ih
      exact ⟨pc ++ pc', by rw [hpc', hpc, List.append_assoc]⟩

/-- A first scan that runs to its end is followed by the next init; when that fails for good,
    the pass ends. -/
theorem PassRun.first_init (h : PassRun l cb (phase :: rest) p r e)
    (hscan : ScanRun cb phase l p none s) (hc : nextInit l cb phase p.called = some c)
    (hp : p.Pending c) :
    (∃ pc, e.called = p.called ++ c :: pc) ∧
      (cb.init c.id ≠ .ok → c.policy = policyRequired → e = s.call c) := by
  obtain ⟨r', s', hrun, hok, herr⟩ := h.cons_inv
  rcases hrun.inv_init hscan hc hp with ⟨hne, hreq, rfl, rfl⟩ | ⟨hgood, hrest⟩
  · obtain ⟨-, rfl⟩ := herr hne
    exact ⟨⟨[], by simp [hscan.called_eq]⟩, fun _ _ => rfl⟩
  · refine ⟨?_, fun hne hreq => absurd ⟨hne, hreq⟩ hgood⟩
    obtain ⟨pc, hpc⟩ := (PassRun.of_phaseRun hrest hok herr).called_append
    exact ⟨pc, by rw [hpc]; simp [hscan.called_eq]⟩

end FirstScan

/-! ## Chains of threatened components -/

/-- A list of components that a scan skips one because of the other.  Only the first of them
    is blocked when the scan begins. -/
structure Chain (comps : List ComponentDesc) (cb : Callbacks) (phase : Nat) (p : Progress)
    (u : ComponentDesc) (tail : List ComponentDesc) (o : Option ComponentDesc) : Prop where
  first : u ∈ blocked comps cb phase p
  later : ∀ x ∈ tail, x ∉ blocked comps cb phase p
  mem : ∀ x ∈ u :: tail, x ∈ comps
  pending : ∀ x ∈ u :: tail, p.Pending x
  nodup : (u :: tail).Nodup
  scan : ScanRun cb phase (u :: tail) p o (p.skipAll (u :: tail))

theorem Chain.single {u : ComponentDesc} (hu : u ∈ blocked comps cb phase p) :
    ∃ o, Chain comps cb phase p u [] o ∧ (u.policy = policyRequired → o = some u) ∧
      (u.policy ≠ policyRequired → o = none) := by
  obtain ⟨hmem, hpend, hph, hdoom⟩ := mem_blocked.mp hu
  have hall : ∀ {P : ComponentDesc → Prop}, P u → ∀ x ∈ [u], P x := by
    intro P h x hx
    rw [List.mem_singleton.mp hx]
    exact h
  by_cases hreq : u.policy = policyRequired
  · refine ⟨some u, ⟨hu, by simp, hall hmem, hall hpend, by simp, ?_⟩, fun _ => rfl,
      fun h => absurd hreq h⟩
    exact ScanRun.halt hpend hph hdoom hreq
  · refine ⟨none, ⟨hu, by simp, hall hmem, hall hpend, by simp, ?_⟩, fun h => absurd h hreq,
      fun _ => rfl⟩
    exact ScanRun.skip hpend hph hdoom hreq (ScanRun.nil _)

/-- A chain grows by a component that depends on one of its members. -/
theorem Chain.snoc (hnd : (ids comps).Nodup) {u x d : ComponentDesc}
    {tail : List ComponentDesc} {pre post : List UInt32}
    (h : Chain comps cb phase p u tail none) (hd : d ∈ u :: tail)
    (hmem : x ∈ comps) (hpend : p.Pending x) (hph : x.phase = phase)
    (hdeps : x.dependencies = pre ++ d.id :: post)
    (hpre : ∀ y ∈ pre, InitDone cb p.called y) (hx : x ∉ u :: tail)
    (hxb : x ∉ blocked comps cb phase p) :
    ∃ o, Chain comps cb phase p u (tail ++ [x]) o ∧
      (x.policy = policyRequired → o = some x) ∧ (x.policy ≠ policyRequired → o = none) := by
  have hall : ∀ {P : ComponentDesc → Prop}, (∀ y ∈ u :: tail, P y) → P x →
      ∀ y ∈ u :: (tail ++ [x]), P y := by
    intro P hold hnew y hy
    rw [← List.cons_append] at hy
    rcases List.mem_append.mp hy with hy | hy
    · exact hold y hy
    · rw [List.mem_singleton.mp hy]
      exact hnew
  have hlater : ∀ y ∈ tail ++ [x], y ∉ blocked comps cb phase p := by
    intro y hy
    rcases List.mem_append.mp hy with hy | hy
    · exact h.later y hy
    · rw [List.mem_singleton.mp hy]
      exact hxb
  have hnodup : (u :: (tail ++ [x])).Nodup := by
    rw [← List.cons_append]
    refine List.nodup_append.mpr ⟨h.nodup, List.nodup_singleton x, ?_⟩
    rintro a ha b hb rfl
    rw [List.mem_singleton.mp hb] at ha
    exact hx ha
  -- the members of the chain are SKIPPED when the scan comes to `x`
  have hpend' : (p.skipAll (u :: tail)).Pending x := by
    refine ⟨hpend.1, fun hm => ?_⟩
    rw [Progress.skipAll_skipped, ids, List.map_append] at hm
    rcases List.mem_append.mp hm with hm | hm
    · exact hpend.2 hm
    · obtain ⟨y, hy, hid⟩ := List.mem_map.mp hm
      exact hx (eq_of_id_eq hnd (h.mem y hy) hmem hid ▸ hy)
  have hdoom : (p.skipAll (u :: tail)).Doomed cb x := by
    refine ⟨pre, d.id, post, hdeps, hpre, Or.inr ?_⟩
    rw [Progress.skipAll_skipped, ids, List.map_append]
    exact List.mem_append_right _ (mem_ids_of_mem hd)
  have heq : p.skipAll (u :: (tail ++ [x])) = (p.skipAll (u :: tail)).skip x := by
    rw [← List.cons_append, Progress.skipAll_append, Progress.skipAll_cons _ x,
      Progress.skipAll_nil]
  by_cases hreq : x.policy = policyRequired
  · refine ⟨some x, ⟨h.first, hlater, hall h.mem hmem, hall h.pending hpend, hnodup, ?_⟩,
      fun _ => rfl, fun h => absurd hreq h⟩
    rw [heq, ← List.cons_append]
    exact h.scan.append (ScanRun.halt hpend' hph hdoom hreq)
  · refine ⟨none, ⟨h.first, hlater, hall h.mem hmem, hall h.pending hpend, hnodup, ?_⟩,
      fun h => absurd h hreq, fun _ => rfl⟩
    rw [heq, ← List.cons_append]
    exact h.scan.append (ScanRun.skip hpend' hph hdoom hreq (ScanRun.nil _))

/-- What is threatened is skipped at the end of some chain, if the chain does not stop at a
    required component before. -/
theorem Threatened.chain (hnd : (ids comps).Nodup) {d : ComponentDesc}
    (h : Threatened comps cb phase p d) :
    (∃ u tail y, Chain comps cb phase p u tail (some y)) ∨
      ∃ u tail, Chain comps cb phase p u tail none ∧ d ∈ u :: tail ∧
        d.policy ≠ policyRequired := by
  -- a blocked component is a chain of its own
  have hsingle : ∀ {d}, d ∈ blocked comps cb phase p →
      (∃ u tail y, Chain comps cb phase p u tail (some y)) ∨
        ∃ u tail, Chain comps cb phase p u tail none ∧ d ∈ u :: tail ∧
          d.policy ≠ policyRequired := by
    intro d hb
    obtain ⟨o, hch, hsome, hnone⟩ := Chain.single hb
    by_cases hreq : d.policy = policyRequired
    · exact Or.inl ⟨d, [], d, hsome hreq ▸ hch⟩
    · exact Or.inr ⟨d, [], hnone hreq ▸ hch, List.mem_cons_self .., hreq⟩
  induction h with
  | base hb => exact hsingle hb
  | @next x d pre post hmem hpend hph _ hdeps hpre ih =>
      rcases ih with hstop | ⟨u, tail, hch, hd, hopt⟩
      · exact Or.inl hstop
      · by_cases hxb : x ∈ blocked comps cb phase p
        · exact hsingle hxb
        · by_cases hx : x ∈ u :: tail
          · refine Or.inr ⟨u, tail, hch, hx, fun hreq => ?_⟩
            -- a chain that does not stop has no required member
            have hskip : ∀ {l : List ComponentDesc} {o : Option ComponentDesc}
                {p s : Progress}, ScanRun cb phase l p o s → o = none →
                ∀ z ∈ s.skipped, z ∉ p.skipped → z.policy ≠ policyRequired := by
              intro l o p s hscan
              induction hscan with
              | nil => exact fun _ z hz hnot => absurd hz hnot
              | keep _ _ ih => exact ih
              | @skip c rest p o s _ _ _ hopt _ ih =>
                  intro ho z hz hnot
                  by_cases hzc : z = c
                  · rw [hzc]
                    exact hopt
                  · refine ih ho z hz fun hm => ?_
                    rcases List.mem_append.mp hm with hm | hm
                    · exact hnot hm
                    · exact hzc (List.mem_singleton.mp hm)
              | halt => exact fun ho => by cases ho
            exact hskip hch.scan rfl x (List.mem_append_right _ hx)
              (fun hm => hpend.2 (mem_ids_of_mem hm)) hreq
          · obtain ⟨o, hch', hsome, hnone⟩ :=
              hch.snoc hnd hd hmem hpend hph hdeps hpre hx hxb
            by_cases hreq : x.policy = policyRequired
            · exact Or.inl ⟨u, tail ++ [x], x, hsome hreq ▸ hch'⟩
            · refine Or.inr ⟨u, tail ++ [x], hnone hreq ▸ hch', ?_, hreq⟩
              exact List.mem_cons_of_mem _ (List.mem_append_right _ (List.mem_singleton.mpr rfl))

/-! ## Orders that end differently -/

/-- All orders of the table end the pass with the same init calls and the same skips. -/
def PassesAgree (comps : List ComponentDesc) (cb : Callbacks) : Prop :=
  ∀ l l' r r' e e', l.Perm comps → l'.Perm comps →
    PassRun l cb (List.range phaseCount) {} r e →
    PassRun l' cb (List.range phaseCount) {} r' e' → e.Same e'

theorem PassesAgree.orderFree (hacc : Accepted comps) (h : PassesAgree comps cb) :
    OrderFree comps cb := by
  intro phase rest p hslow
  obtain ⟨order, hord, hres, hlift⟩ := hslow.lift hacc
  have hinv := hslow.inv hacc
  have hcomps : comps.Nodup := List.Nodup.of_map _ hacc.nodup
  have hrun : ∀ front, (front ++ order).Perm comps →
      ∃ r e, PassRun (front ++ order) cb (phase :: rest) p r e ∧
        PassRun (front ++ order) cb (List.range phaseCount) {} r e := by
    intro front hperm
    obtain ⟨r, e, hpass, -, -⟩ := initializePhases_lifecycle (hacc.of_perm hperm)
      (hinv.of_perm hperm) (phase :: rest)
    exact ⟨r, e, hpass, hlift front r e hperm hpass⟩
  have hfront : ∀ ch : List ComponentDesc, ch.Nodup → (∀ x ∈ ch, x ∈ comps) →
      (∀ x ∈ ch, p.Pending x) → ∃ X, (∀ x ∈ X, x ∈ comps ∧ x ∉ ch) ∧
        (ch ++ X ++ order).Perm comps ∧ (X ++ ch ++ order).Perm comps :=
    fun ch hnd hmem hpend => exists_front hcomps hnd hord hmem (fun x hx => (hres x hx).1)
      fun x hx hx' => (hres x hx').2 (hpend x hx)
  by_cases hreq : ∃ u tail y, Chain comps cb phase p u tail (some y)
  · obtain ⟨u, tail, y, hch⟩ := hreq
    -- the order that starts with the chain stops at its end
    obtain ⟨X, -, hperm, -⟩ := hfront _ hch.nodup hch.mem hch.pending
    obtain ⟨r, e, hpass, htop⟩ := hrun _ hperm
    rw [List.append_assoc] at hpass
    obtain rfl := hpass.eq_of_front_halt hch.scan
    have huniq : ∀ v, v ∈ blocked comps cb phase p ↔ v = u := by
      refine fun v => ⟨fun hv => ?_, fun hv => hv ▸ hch.first⟩
      by_contra hvu
      -- the order that starts with `v` skips it
      obtain ⟨o, hv', -⟩ := Chain.single hv
      obtain ⟨Y, -, hperm', -⟩ := hfront _ hv'.nodup hv'.mem hv'.pending
      obtain ⟨r', e', hpass', htop'⟩ := hrun _ hperm'
      rw [List.append_assoc] at hpass'
      have hve : v ∈ e'.skipped :=
        hpass'.skipped_of_front hv'.scan v (List.mem_append_right _ (by simp))
      have hagree := h _ _ _ _ _ _ hperm hperm' htop htop'
      rcases List.mem_append.mp ((hagree.skipped v).mp hve) with hm | hm
      · exact (hv'.pending v (by simp)).2 (mem_ids_of_mem hm)
      · rcases List.mem_cons.mp hm with rfl | hm
        · exact hvu rfl
        · exact hch.later v hm hv
    refine Or.inr ⟨u, huniq, ?_⟩
    by_contra hnot
    push Not at hnot
    obtain ⟨hopt, hsome⟩ := hnot
    obtain ⟨c, hc⟩ := Option.ne_none_iff_exists'.mp hsome
    -- the order with `u` behind the others calls one more init
    have hb := blocked_eq_singleton hacc.nodup huniq
    obtain ⟨hcm, hel, -⟩ := nextInit_eq_some hc
    obtain ⟨Y, -, -, hperm'⟩ := hfront (blocked comps cb phase p) (by rw [hb]; simp)
      (fun x hx => blocked_mem hx) fun x hx => (mem_blocked.mp hx).2.1
    obtain ⟨r', e', hpass', htop'⟩ := hrun _ hperm'
    have hoptb : ∀ x ∈ blocked comps cb phase p, x.policy ≠ policyRequired := by
      intro x hx
      rw [(huniq x).mp hx]
      exact hopt
    have hscan := scanRun_slow hacc.nodup hoptb (fun x hx => (hres x hx).2) hperm'
    obtain ⟨⟨pc, hpc⟩, -⟩ := hpass'.first_init hscan
      (by rw [nextInit_of_perm hperm' hacc.nodup]; exact hc) (hel.pending hacc hinv hcm)
    have hagree := h _ _ _ _ _ _ hperm hperm' htop htop'
    have hlen := congrArg List.length hagree.called
    rw [hpc] at hlen
    simp at hlen
  · -- no scan stops at a required component
    have hchain : ∀ z, Threatened comps cb phase p z → ∃ u tail,
        Chain comps cb phase p u tail none ∧ z ∈ u :: tail ∧ z.policy ≠ policyRequired :=
      fun z hz => (hz.chain hacc.nodup).resolve_left hreq
    refine Or.inl ⟨fun z hz => ?_, fun c hc hne hcreq z hz => ?_⟩
    · obtain ⟨u, tail, -, -, hopt⟩ := hchain z hz
      exact hopt
    · by_contra hzb
      have hoptb : ∀ x ∈ blocked comps cb phase p, x.policy ≠ policyRequired := by
        intro x hx
        obtain ⟨u, tail, -, -, hopt⟩ := hchain x (Threatened.base hx)
        exact hopt
      -- an order that skips the chain up to `z` at once
      obtain ⟨u, tail, hch, hzm, -⟩ := hchain z hz
      obtain ⟨X, -, hperm, -⟩ := hfront _ hch.nodup hch.mem hch.pending
      obtain ⟨r, e, hpass, htop⟩ := hrun _ hperm
      rw [List.append_assoc] at hpass
      have hze : z ∈ e.skipped :=
        hpass.skipped_of_front hch.scan z (List.mem_append_right _ hzm)
      -- the order that skips the blocked components only, before the init fails
      obtain ⟨Y, -, -, hperm'⟩ := hfront (blocked comps cb phase p)
        (List.Nodup.of_map _ (blocked_nodup hacc.nodup))
        (fun x hx => blocked_mem hx) fun x hx => (mem_blocked.mp hx).2.1
      obtain ⟨r', e', hpass', htop'⟩ := hrun _ hperm'
      obtain ⟨hcm, hel, -⟩ := nextInit_eq_some hc
      have hscan := scanRun_slow hacc.nodup hoptb (fun x hx => (hres x hx).2) hperm'
      obtain ⟨-, hfail⟩ := hpass'.first_init hscan
        (by rw [nextInit_of_perm hperm' hacc.nodup]; exact hc) (hel.pending hacc hinv hcm)
      obtain rfl := hfail hne hcreq
      have hagree := h _ _ _ _ _ _ hperm hperm' htop htop'
      rcases List.mem_append.mp ((hagree.skipped z).mpr hze) with hm | hm
      · exact hz.pending.2 (mem_ids_of_mem hm)
      · exact hzb hm

end Divergence

end Component
end AppCore
