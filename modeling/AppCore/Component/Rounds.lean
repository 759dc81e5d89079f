/-
  AppCore.Component.Rounds

  The rounds of `initialize_phase`.  A scan only ever marks components SKIPPED
  (`ScanRun`) and picks the least-id component that is ready (`nextInit`), which
  depends on the init calls made so far but not on the skips.  `PhaseRun` is one
  run of `initialize_phase` and `PassRun` the loop over the phases; both return
  within the fuel the model gives them.
-/

import AppCore.Component.InitPass

namespace AppCore
namespace Component

section Rounds

variable (comps : List ComponentDesc) (cb : Callbacks) (phase : Nat)

/-- The component could be the next one of its phase to be initialized. -/
def Eligible (called : List ComponentDesc) (c : ComponentDesc) : Prop :=
  c.phase = phase ∧ c.id ∉ ids called ∧ Ready cb called c

instance (called : List ComponentDesc) (c : ComponentDesc) :
    Decidable (Eligible cb phase called c) :=
  inferInstanceAs (Decidable (_ ∧ _ ∧ _))

/-- The candidate after the remaining slots, given the candidate so far. -/
def pickEligible (called : List ComponentDesc) :
    List ComponentDesc → Option ComponentDesc → Option ComponentDesc
  | [], candidate => candidate
  | c :: rest, candidate =>
    pickEligible called rest
      (if Eligible cb phase called c ∧ betterCandidate c candidate = true then some c
       else candidate)

/-- The component of the phase whose init is called next. -/
def nextInit (called : List ComponentDesc) : Option ComponentDesc :=
  pickEligible cb phase called comps none

/-- A scan over the remaining slots: `some c` when it stops at the required
    component `c`. -/
inductive ScanRun : List ComponentDesc → Progress → Option ComponentDesc → Progress → Prop
  | nil (p : Progress) : ScanRun [] p none p
  | keep {c rest p r p'} : ¬ (p.Pending c ∧ c.phase = phase ∧ p.Doomed cb c) →
      ScanRun rest p r p' → ScanRun (c :: rest) p r p'
  | skip {c rest p r p'} : p.Pending c → c.phase = phase → p.Doomed cb c →
      c.policy ≠ policyRequired → ScanRun rest (p.skip c) r p' → ScanRun (c :: rest) p r p'
  | halt {c rest p} : p.Pending c → c.phase = phase → p.Doomed cb c →
      c.policy = policyRequired → ScanRun (c :: rest) p (some c) (p.skip c)

/-- A run of `initialize_phase`, round by round. -/
inductive PhaseRun : Progress → SysErr → Progress → Prop
  | halt {p c p'} : ScanRun cb phase comps p (some c) p' → PhaseRun p .dependency p'
  | done {p} : ScanRun cb phase comps p none p →
      (∀ c ∈ comps, c.phase = phase → ¬ p.Pending c) → PhaseRun p .ok p
  | stuck {p} : ScanRun cb phase comps p none p →
      (∃ c ∈ comps, c.phase = phase ∧ p.Pending c) →
      nextInit comps cb phase p.called = none → PhaseRun p .dependency p
  | again {p p' r p''} : ScanRun cb phase comps p none p' → p' ≠ p →
      nextInit comps cb phase p.called = none → PhaseRun p' r p'' → PhaseRun p r p''
  | fail {p p' c} : ScanRun cb phase comps p none p' →
      nextInit comps cb phase p.called = some c → cb.init c.id ≠ .ok →
      c.policy = policyRequired → PhaseRun p (cb.init c.id) (p'.call c)
  | next {p p' c r p''} : ScanRun cb phase comps p none p' →
      nextInit comps cb phase p.called = some c →
      ¬ (cb.init c.id ≠ .ok ∧ c.policy = policyRequired) →
      PhaseRun (p'.call c) r p'' → PhaseRun p r p''

/-- The loop of `sys_component_start_all` over the remaining phases. -/
inductive PassRun : List Nat → Progress → SysErr → Progress → Prop
  | nil (p : Progress) : PassRun [] p .ok p
  | error {phase rest p r p'} : PhaseRun comps cb phase p r p' → r ≠ .ok →
      PassRun (phase :: rest) p r p'
  | next {phase rest p p' r p''} : PhaseRun comps cb phase p .ok p' →
      PassRun rest p' r p'' → PassRun (phase :: rest) p r p''

variable {comps cb phase}

/-! ## The next component to initialize -/

section PickEligible

variable {called l : List ComponentDesc} {cand : Option ComponentDesc} {c : ComponentDesc}

theorem betterCandidate_eq_true_iff (c : ComponentDesc) (cand : Option ComponentDesc) :
    betterCandidate c cand = true ↔ ∀ e, cand = some e → c.id.toNat < e.id.toNat := by
  cases cand with
  | none => simp [betterCandidate]
  | some e => simp [betterCandidate, UInt32.lt_iff_toNat_lt]

theorem pickEligible_cons_pos (h : Eligible cb phase called c) :
    pickEligible cb phase called (c :: l) cand =
      pickEligible cb phase called l
        (if betterCandidate c cand = true then some c else cand) := by
  simp [pickEligible, h]

theorem pickEligible_cons_neg (h : ¬ Eligible cb phase called c) :
    pickEligible cb phase called (c :: l) cand = pickEligible cb phase called l cand := by
  simp [pickEligible, h]

/-- The fold returns an eligible component of the list or the start value, and
    nothing eligible has a smaller id. -/
theorem pickEligible_spec (cb : Callbacks) (phase : Nat) (called l : List ComponentDesc)
    (cand : Option ComponentDesc) :
    (pickEligible cb phase called l cand = cand ∨
      ∃ c ∈ l, Eligible cb phase called c ∧ pickEligible cb phase called l cand = some c) ∧
    (∀ e, cand = some e ∨ (e ∈ l ∧ Eligible cb phase called e) →
      ∃ c, pickEligible cb phase called l cand = some c ∧ c.id.toNat ≤ e.id.toNat) := by
  induction l generalizing cand with
  | nil =>
      refine ⟨Or.inl rfl, ?_⟩
      rintro e (rfl | ⟨he, -⟩)
      · exact ⟨e, rfl, le_refl _⟩
      · cases he
  | cons x rest ih =>
      simp only [pickEligible]
      by_cases hx : Eligible cb phase called x ∧ betterCandidate x cand = true
      · rw [if_pos hx]
        obtain ⟨hfrom, hmin⟩ := ih (some x)
        refine ⟨Or.inr ?_, ?_⟩
        · rcases hfrom with h | ⟨c, hc, he, h⟩
          · exact ⟨x, List.mem_cons_self .., hx.1, h⟩
          · exact ⟨c, List.mem_cons_of_mem _ hc, he, h⟩
        · rintro e (rfl | ⟨he, hel⟩)
          · obtain ⟨c, hc, hle⟩ := hmin x (Or.inl rfl)
            have := (betterCandidate_eq_true_iff x (some e)).mp hx.2 e rfl
            exact ⟨c, hc, by omega⟩
          · rcases List.mem_cons.mp he with rfl | he
            · exact hmin e (Or.inl rfl)
            · exact hmin e (Or.inr ⟨he, hel⟩)
      · rw [if_neg hx]
        obtain ⟨hfrom, hmin⟩ := ih cand
        refine ⟨?_, ?_⟩
        · rcases hfrom with h | ⟨c, hc, he, h⟩
          · exact Or.inl h
          · exact Or.inr ⟨c, List.mem_cons_of_mem _ hc, he, h⟩
        · rintro e (rfl | ⟨he, hel⟩)
          · exact hmin e (Or.inl rfl)
          · rcases List.mem_cons.mp he with rfl | he
            · have hnb : ¬ betterCandidate e cand = true := fun hb => hx ⟨hel, hb⟩
              rw [betterCandidate_eq_true_iff] at hnb
              push Not at hnb
              obtain ⟨f, hf, hle⟩ := hnb
              obtain ⟨c, hc, hle'⟩ := hmin f (Or.inl hf)
              exact ⟨c, hc, by omega⟩
            · exact hmin e (Or.inr ⟨he, hel⟩)

theorem nextInit_eq_some (h : nextInit comps cb phase called = some c) :
    c ∈ comps ∧ Eligible cb phase called c ∧
      ∀ e ∈ comps, Eligible cb phase called e → c.id.toNat ≤ e.id.toNat := by
  obtain ⟨hfrom, hmin⟩ := pickEligible_spec cb phase called comps none
  rw [nextInit] at h
  have hle : ∀ e ∈ comps, Eligible cb phase called e → c.id.toNat ≤ e.id.toNat := by
    intro e he hel
    obtain ⟨x, hx, hxe⟩ := hmin e (Or.inr ⟨he, hel⟩)
    rw [h] at hx
    cases hx
    exact hxe
  rcases hfrom with hn | ⟨x, hx, hel, hsome⟩
  · rw [h] at hn; cases hn
  · rw [h] at hsome
    cases hsome
    exact ⟨hx, hel, hle⟩

theorem nextInit_eq_none (h : nextInit comps cb phase called = none) :
    ∀ e ∈ comps, ¬ Eligible cb phase called e := by
  intro e he hel
  obtain ⟨c, hc, -⟩ :=
    (pickEligible_spec cb phase called comps none).2 e (Or.inr ⟨he, hel⟩)
  rw [nextInit] at h
  rw [h] at hc
  cases hc

end PickEligible

/-! ## The scan -/

section Scan

variable {l : List ComponentDesc} {p p' : Progress} {r : Option ComponentDesc}

theorem ScanRun.inv (h : ScanRun cb phase l p r p') (hl : ∀ c ∈ l, c ∈ comps)
    (hp : p.Inv comps cb) : p'.Inv comps cb := by
  induction h with
  | nil => exact hp
  | keep _ _ ih => exact ih (fun c hc => hl c (List.mem_cons_of_mem _ hc)) hp
  | skip hpend _ hdoom _ _ ih =>
      exact ih (fun c hc => hl c (List.mem_cons_of_mem _ hc))
        (hp.skip (hl _ (List.mem_cons_self ..)) hpend hdoom)
  | halt hpend _ hdoom _ => exact hp.skip (hl _ (List.mem_cons_self ..)) hpend hdoom

/-- A scan makes no init call. -/
theorem ScanRun.called_eq (h : ScanRun cb phase l p r p') : p'.called = p.called := by
  induction h with
  | nil => rfl
  | keep _ _ ih => exact ih
  | skip _ _ _ _ _ ih => exact ih
  | halt => rfl

/-- A scan appends to the skipped components, all of them from its phase. -/
theorem ScanRun.skipped_append (h : ScanRun cb phase l p r p') :
    ∃ new, p'.skipped = p.skipped ++ new ∧ ∀ c ∈ new, c ∈ l ∧ c.phase = phase := by
  induction h with
  | nil => exact ⟨[], by simp, by simp⟩
  | keep _ _ ih =>
      obtain ⟨new, heq, hnew⟩ := ih
      exact ⟨new, heq, fun c hc => ⟨List.mem_cons_of_mem _ (hnew c hc).1, (hnew c hc).2⟩⟩
  | @skip c rest p r p' hpend hphase hdoom hopt hrest ih =>
      obtain ⟨new, heq, hnew⟩ := ih
      refine ⟨c :: new, by rw [heq]; simp, ?_⟩
      intro e he
      rcases List.mem_cons.mp he with rfl | he
      · exact ⟨List.mem_cons_self .., hphase⟩
      · exact ⟨List.mem_cons_of_mem _ (hnew e he).1, (hnew e he).2⟩
  | @halt c rest p hpend hphase hdoom hreq =>
      refine ⟨[c], rfl, ?_⟩
      intro e he
      rw [List.mem_singleton.mp he]
      exact ⟨List.mem_cons_self .., hphase⟩

/-- A scan that runs to its end skips optional components only. -/
theorem ScanRun.optional (h : ScanRun cb phase l p none p')
    (hp : ∀ c ∈ p.skipped, c.policy ≠ policyRequired) :
    ∀ c ∈ p'.skipped, c.policy ≠ policyRequired := by
  generalize hr : (none : Option ComponentDesc) = r at h
  induction h with
  | nil => exact hp
  | keep _ _ ih => exact ih hp hr
  | @skip c rest p r p' hpend hphase hdoom hopt hrest ih =>
      refine ih ?_ hr
      intro e he
      rcases List.mem_append.mp he with he | he
      · exact hp e he
      · rw [List.mem_singleton.mp he]; exact hopt
  | halt => cases hr

theorem length_filter_pending_skip {c : ComponentDesc} (hc : c.id ∉ ids l) :
    (l.filter fun e => e.phase = phase ∧ (p.skip c).Pending e).length =
      (l.filter fun e => e.phase = phase ∧ p.Pending e).length := by
  congr 1
  apply List.filter_congr
  intro e he
  have hne : e.id ≠ c.id := fun h => hc (h ▸ mem_ids_of_mem he)
  simp [Progress.Pending, hne]

section ScanComponent

variable {c : ComponentDesc} {round round' : Round} {g g' : Lifecycle} {e : SysErr}

theorem scanComponents_cons_ok (h : scanComponent phase c round g = (.ok, round', g')) :
    scanComponents phase (c :: l) round g = scanComponents phase l round' g' := by
  simp [scanComponents, h]

theorem scanComponents_cons_error (h : scanComponent phase c round g = (e, round', g'))
    (he : e ≠ .ok) : scanComponents phase (c :: l) round g = (e, round', g') := by
  simp [scanComponents, h, he]

theorem scanComponent_other (h : (g.runtime c.id).state ≠ .discovered ∨ c.phase ≠ phase) :
    scanComponent phase c round g = (.ok, round, g) := by
  rw [scanComponent, if_pos h]

theorem scanComponent_waiting (hst : (g.runtime c.id).state = .discovered)
    (hph : c.phase = phase) (hchk : checkDependencies g c false = .waiting) :
    scanComponent phase c round g =
      (.ok, { round with pendingCount := round.pendingCount + 1 }, g) := by
  simp [scanComponent, hst, hph, hchk]

theorem scanComponent_ready (hst : (g.runtime c.id).state = .discovered)
    (hph : c.phase = phase) (hchk : checkDependencies g c false = .ready) :
    scanComponent phase c round g =
      (.ok,
        { round with
          pendingCount := round.pendingCount + 1
          candidate := if betterCandidate c round.candidate = true then some c
            else round.candidate }, g) := by
  by_cases hb : betterCandidate c round.candidate = true <;>
    simp [scanComponent, hst, hph, hchk, hb]

theorem scanComponent_failed (round : Round) (hst : (g.runtime c.id).state = .discovered)
    (hph : c.phase = phase) (hchk : checkDependencies g c false = .failed)
    (hdep : handleDependencyFailure c g = (e, g')) :
    scanComponent phase c round g =
      (if e ≠ .ok then (e, { round with pendingCount := round.pendingCount + 1 }, g')
       else (.ok,
        { round with
          pendingCount := round.pendingCount + 1
          skippedComponent := true }, g')) := by
  simp [scanComponent, hst, hph, hchk, hdep]

/-- What the scan does at one slot, with the local variables and the table it leaves. -/
inductive SlotCase (comps : List ComponentDesc) (cb : Callbacks) (phase : Nat) (p : Progress)
    (round : Round) (c : ComponentDesc) : SysErr × Round × Lifecycle → Prop
  | other (hpend : ¬ (c.phase = phase ∧ p.Pending c)) (hnel : ¬ Eligible cb phase p.called c) :
      SlotCase comps cb phase p round c (.ok, round, p.lifecycle comps cb)
  | halts (hph : c.phase = phase) (hpd : p.Pending c) (hdoom : p.Doomed cb c)
      (hreq : c.policy = policyRequired) :
      SlotCase comps cb phase p round c
        (.dependency, { round with pendingCount := round.pendingCount + 1 },
          (p.skip c).lifecycle comps cb)
  | skips (hph : c.phase = phase) (hpd : p.Pending c) (hdoom : p.Doomed cb c)
      (hopt : c.policy ≠ policyRequired) (hnr : ¬ Ready cb p.called c) :
      SlotCase comps cb phase p round c
        (.ok,
          { round with pendingCount := round.pendingCount + 1, skippedComponent := true },
          (p.skip c).lifecycle comps cb)
  | ready (hph : c.phase = phase) (hpd : p.Pending c) (hready : Ready cb p.called c)
      (hnd : ¬ p.Doomed cb c) :
      SlotCase comps cb phase p round c
        (.ok,
          { round with
            pendingCount := round.pendingCount + 1
            candidate := if betterCandidate c round.candidate = true then some c
              else round.candidate },
          p.lifecycle comps cb)
  | waiting (hph : c.phase = phase) (hpd : p.Pending c) (hnr : ¬ Ready cb p.called c)
      (hnd : ¬ p.Doomed cb c) :
      SlotCase comps cb phase p round c
        (.ok, { round with pendingCount := round.pendingCount + 1 }, p.lifecycle comps cb)

theorem scanComponent_cases (phase : Nat) (hacc : Accepted comps) (hc : c ∈ comps)
    (hp : p.Inv comps cb) (round : Round) :
    SlotCase comps cb phase p round c (scanComponent phase c round (p.lifecycle comps cb)) := by
  have hknown : ∀ d ∈ c.dependencies, d ∈ ids comps := by
    intro d hd
    obtain ⟨e, he, hid, -⟩ := hacc.known c hc d hd
    exact hid ▸ mem_ids_of_mem he
  have hready : checkDependencies (p.lifecycle comps cb) c false = .ready ↔
      Ready cb p.called c := checkDependencyList_eq_ready_iff hknown hp.disjoint
  have hfailed : checkDependencies (p.lifecycle comps cb) c false = .failed ↔
      p.Doomed cb c := checkDependencyList_eq_failed_iff hknown hp.disjoint
  have hdiscovered : ((p.lifecycle comps cb).runtime c.id).state = .discovered ↔ p.Pending c :=
    Progress.runtime_state_eq_discovered_iff p c
  by_cases hpend : c.phase = phase ∧ p.Pending c
  · -- the slot is DISCOVERED and of this phase
    obtain ⟨hph, hpd⟩ := hpend
    have hst : ((p.lifecycle comps cb).runtime c.id).state = .discovered := hdiscovered.mpr hpd
    cases hchk : checkDependencies (p.lifecycle comps cb) c false with
    | failed =>
        have hdoom : p.Doomed cb c := hfailed.mp hchk
        have hnr : ¬ Ready cb p.called c := fun h => by
          rw [hready.mpr h] at hchk; cases hchk
        rw [scanComponent_failed round hst hph hchk (handleDependencyFailure_lifecycle hpd)]
        by_cases hreq : c.policy = policyRequired
        · rw [if_pos hreq, if_pos (by decide)]
          exact .halts hph hpd hdoom hreq
        · rw [if_neg hreq, if_neg (by simp)]
          exact .skips hph hpd hdoom hreq hnr
    | ready =>
        rw [scanComponent_ready hst hph hchk]
        refine .ready hph hpd (hready.mp hchk) fun h => ?_
        rw [hfailed.mpr h] at hchk; cases hchk
    | waiting =>
        rw [scanComponent_waiting hst hph hchk]
        refine .waiting hph hpd (fun h => ?_) fun h => ?_
        · rw [hready.mpr h] at hchk; cases hchk
        · rw [hfailed.mpr h] at hchk; cases hchk
  · -- the slot is passed over
    have hcond : ((p.lifecycle comps cb).runtime c.id).state ≠ .discovered ∨
        c.phase ≠ phase := by
      by_cases hph : c.phase = phase
      · exact Or.inl fun hst => hpend ⟨hph, hdiscovered.mp hst⟩
      · exact Or.inr hph
    rw [scanComponent_other hcond]
    refine .other hpend ?_
    rintro ⟨hph, hnc, hr⟩
    exact hpend ⟨hph, hnc, hp.not_skipped_of_ready hacc.nodup hc hr⟩

end ScanComponent

theorem length_filter_pending_cons {c : ComponentDesc} (hph : c.phase = phase)
    (hpd : p.Pending c) :
    ((c :: l).filter fun e => e.phase = phase ∧ p.Pending e).length =
      (l.filter fun e => e.phase = phase ∧ p.Pending e).length + 1 := by
  rw [List.filter_cons_of_pos (by simp [hph, hpd]), List.length_cons]

/-- The scan of the model follows `ScanRun`, and its local variables count the
    pending components, tell whether a component was skipped, and hold the
    next component to initialize. -/
theorem scanComponents_lifecycle (phase : Nat) (hacc : Accepted comps) (round : Round)
    (hl : ∀ c ∈ l, c ∈ comps) (hndl : (ids l).Nodup) (hp : p.Inv comps cb) :
    ∃ r p', ScanRun cb phase l p r p' ∧
      match r with
      | some _ => ∃ round', scanComponents phase l round (p.lifecycle comps cb) =
          (.dependency, round', p'.lifecycle comps cb)
      | none => scanComponents phase l round (p.lifecycle comps cb) =
          (.ok,
            { pendingCount := round.pendingCount +
                (l.filter fun c => c.phase = phase ∧ p.Pending c).length
              skippedComponent := round.skippedComponent ||
                decide (p.skipped.length < p'.skipped.length)
              candidate := pickEligible cb phase p.called l round.candidate },
            p'.lifecycle comps cb) := by
  induction l generalizing round p with
  | nil =>
      refine ⟨none, p, ScanRun.nil p, ?_⟩
      simp [scanComponents, pickEligible]
  | cons c rest ih =>
      have hc : c ∈ comps := hl c (List.mem_cons_self ..)
      have hrest : ∀ e ∈ rest, e ∈ comps := fun e he => hl e (List.mem_cons_of_mem _ he)
      obtain ⟨hcrest, hndrest⟩ := List.nodup_cons.mp hndl
      have hslot := scanComponent_cases phase hacc hc hp round
      generalize hstep : scanComponent phase c round (p.lifecycle comps cb) = res at hslot
      cases hslot with
      | other hpend hnel =>
          obtain ⟨r, p', hrun, hres⟩ := ih round hrest hndrest hp
          refine ⟨r, p', ScanRun.keep (fun h => hpend ⟨h.2.1, h.1⟩) hrun, ?_⟩
          rw [scanComponents_cons_ok hstep]
          cases r with
          | some e => exact hres
          | none =>
              simp only at hres ⊢
              rw [hres, pickEligible_cons_neg hnel, List.filter_cons_of_neg (by simpa using hpend)]
      | halts hph hpd hdoom hreq =>
          exact ⟨some c, p.skip c, ScanRun.halt hpd hph hdoom hreq, _,
            scanComponents_cons_error hstep (by decide)⟩
      | skips hph hpd hdoom hopt hnr =>
          obtain ⟨r, p', hrun, hres⟩ := ih
            { round with pendingCount := round.pendingCount + 1, skippedComponent := true }
            hrest hndrest (hp.skip hc hpd hdoom)
          refine ⟨r, p', ScanRun.skip hpd hph hdoom hopt hrun, ?_⟩
          rw [scanComponents_cons_ok hstep]
          cases r with
          | some e => exact hres
          | none =>
              -- the rest of the scan only adds to the skipped components
              obtain ⟨new, hnew, -⟩ := hrun.skipped_append
              have hlt : p.skipped.length < p'.skipped.length := by
                rw [hnew]; simp
              simp only at hres ⊢
              rw [hres, length_filter_pending_skip hcrest, length_filter_pending_cons hph hpd,
                pickEligible_cons_neg fun hel => hnr hel.2.2]
              simp [hlt, Nat.add_assoc, Nat.add_comm 1]
      | ready hph hpd hready hnd =>
          obtain ⟨r, p', hrun, hres⟩ := ih _ hrest hndrest hp
          refine ⟨r, p', ScanRun.keep (fun h => hnd h.2.2) hrun, ?_⟩
          rw [scanComponents_cons_ok hstep]
          cases r with
          | some e => exact hres
          | none =>
              simp only at hres ⊢
              rw [hres, length_filter_pending_cons hph hpd,
                pickEligible_cons_pos ⟨hph, hpd.1, hready⟩, Nat.add_assoc, Nat.add_comm 1]
      | waiting hph hpd hnr hnd =>
          obtain ⟨r, p', hrun, hres⟩ := ih _ hrest hndrest hp
          refine ⟨r, p', ScanRun.keep (fun h => hnd h.2.2) hrun, ?_⟩
          rw [scanComponents_cons_ok hstep]
          cases r with
          | some e => exact hres
          | none =>
              simp only at hres ⊢
              rw [hres, length_filter_pending_cons hph hpd,
                pickEligible_cons_neg fun hel => hnr hel.2.2, Nat.add_assoc, Nat.add_comm 1]

end Scan

/-! ## The rounds of one phase -/

/-- The number of components of the phase that are still DISCOVERED. -/
def Progress.pendingCount (comps : List ComponentDesc) (phase : Nat) (p : Progress) : Nat :=
  (comps.filter fun c => c.phase = phase ∧ p.Pending c).length

section Phase

variable {p p' : Progress} {r : SysErr} {c : ComponentDesc}

/-- Resolving a pending component of the phase lowers the count. -/
theorem Progress.pendingCount_lt (hsub : ∀ e, p'.Pending e → p.Pending e) (hc : c ∈ comps)
    (hph : c.phase = phase) (hp : p.Pending c) (hp' : ¬ p'.Pending c) :
    p'.pendingCount comps phase < p.pendingCount comps phase := by
  exact length_filter_lt (fun e he => ⟨he.1, hsub e he.2⟩) hc ⟨hph, hp⟩ fun h => hp' h.2

/-- A component that is resolved stays resolved in later progress. -/
theorem Progress.Pending.of_append (pc ps : List ComponentDesc)
    (hc : p'.called = p.called ++ pc) (hs : p'.skipped = p.skipped ++ ps)
    (h : p'.Pending c) : p.Pending c := by
  obtain ⟨h1, h2⟩ := h
  rw [hc] at h1
  rw [hs] at h2
  simp only [ids, List.map_append, List.mem_append, not_or] at h1 h2
  exact ⟨h1.1, h2.1⟩

theorem ScanRun.pending_of_pending {l : List ComponentDesc} {o : Option ComponentDesc}
    (h : ScanRun cb phase l p o p') (hp : p'.Pending c) : p.Pending c := by
  obtain ⟨new, hnew, -⟩ := h.skipped_append
  exact Progress.Pending.of_append [] new (by rw [h.called_eq]; simp) hnew hp

/-- A scan without a pending component of the phase changes nothing. -/
theorem ScanRun.eq_of_no_pending {l : List ComponentDesc} {o : Option ComponentDesc}
    (h : ScanRun cb phase l p o p')
    (hno : ∀ c ∈ l, ¬ (c.phase = phase ∧ p.Pending c)) : p' = p := by
  induction h with
  | nil => rfl
  | keep _ _ ih => exact ih fun c hc => hno c (List.mem_cons_of_mem _ hc)
  | skip hp hph => exact absurd ⟨hph, hp⟩ (hno _ (List.mem_cons_self ..))
  | halt hp hph => exact absurd ⟨hph, hp⟩ (hno _ (List.mem_cons_self ..))

/-- A scan that appends nothing to the skipped components changes nothing. -/
theorem ScanRun.eq_of_length {l : List ComponentDesc} {o : Option ComponentDesc}
    (h : ScanRun cb phase l p o p') (hlen : ¬ p.skipped.length < p'.skipped.length) :
    p' = p := by
  obtain ⟨new, hnew, -⟩ := h.skipped_append
  have hnil : new = [] := by
    rw [hnew, List.length_append] at hlen
    exact List.length_eq_zero_iff.mp (by omega)
  have hs : p'.skipped = p.skipped := by rw [hnew, hnil, List.append_nil]
  have hc := h.called_eq
  cases p; cases p'
  simp_all

/-- A scan that runs to its end and changes something resolves a component. -/
theorem ScanRun.pendingCount_lt (h : ScanRun cb phase comps p none p') (hne : p' ≠ p) :
    p'.pendingCount comps phase < p.pendingCount comps phase := by
  obtain ⟨new, hnew, hmem⟩ := h.skipped_append
  cases new with
  | nil => exact absurd (h.eq_of_length (by rw [hnew]; simp)) hne
  | cons c rest =>
      obtain ⟨hc, hph⟩ := hmem c (List.mem_cons_self ..)
      -- `c` was pending: the scan only skips what it finds pending
      have hpend : p.Pending c := by
        by_contra hnp
        have : ∀ {l o p p'}, ScanRun cb phase l p o p' → ¬ p.Pending c →
            ∀ new, p'.skipped = p.skipped ++ new → c ∉ new := by
          intro l o p p' h
          induction h with
          | nil p =>
              intro _ new hnew
              have : new = [] := by simpa using hnew
              simp [this]
          | keep _ _ ih => exact ih
          | @skip e rest p r p' hp _ _ _ hrest ih =>
              intro hnp new hnew
              obtain ⟨new', hnew', -⟩ := hrest.skipped_append
              have hcons : new = e :: new' := by
                have : p.skipped ++ new = p.skipped ++ (e :: new') := by
                  rw [← hnew, hnew']; simp
                exact List.append_cancel_left this
              have hnp' : ¬ (p.skip e).Pending c := fun h =>
                hnp (Progress.Pending.of_append [] [e] (by simp) rfl h)
              rw [hcons]
              intro hm
              rcases List.mem_cons.mp hm with rfl | hm
              · exact hnp hp
              · exact ih hnp' new' hnew' hm
          | @halt e rest p hp _ _ _ =>
              intro hnp new hnew
              have : new = [e] := List.append_cancel_left (hnew.symm.trans rfl)
              rw [this, List.mem_singleton]
              rintro rfl
              exact hnp hp
        exact this h hnp (c :: rest) hnew (List.mem_cons_self ..)
      have hnp' : ¬ p'.Pending c := by
        intro hp'
        apply hp'.2
        rw [hnew]
        simp
      exact Progress.pendingCount_lt (fun e => h.pending_of_pending) hc hph hpend hnp'

theorem Eligible.pending (hacc : Accepted comps) (hp : p.Inv comps cb) (hc : c ∈ comps)
    (h : Eligible cb phase p.called c) : p.Pending c :=
  ⟨h.2.1, hp.not_skipped_of_ready hacc.nodup hc h.2.2⟩

section Round

variable {n : Nat} {g g' g'' : Lifecycle} {round : Round} {e : SysErr}

theorem initializePhase_halt
    (h : scanComponents phase g.components {} g = (e, round, g')) (he : e ≠ .ok) :
    initializePhase cb phase (n + 1) g = some (e, g') := by
  simp [initializePhase, h, he]

theorem initializePhase_done
    (h : scanComponents phase g.components {} g = (.ok, round, g'))
    (h0 : round.pendingCount = 0) :
    initializePhase cb phase (n + 1) g = some (.ok, g') := by
  simp [initializePhase, h, h0]

theorem initializePhase_stuck
    (h : scanComponents phase g.components {} g = (.ok, round, g'))
    (h0 : round.pendingCount ≠ 0) (hc : round.candidate = none)
    (hs : round.skippedComponent = false) :
    initializePhase cb phase (n + 1) g = some (.dependency, g') := by
  simp [initializePhase, h, h0, hc, hs]

theorem initializePhase_again
    (h : scanComponents phase g.components {} g = (.ok, round, g'))
    (h0 : round.pendingCount ≠ 0) (hc : round.candidate = none)
    (hs : round.skippedComponent = true) :
    initializePhase cb phase (n + 1) g = initializePhase cb phase n g' := by
  simp [initializePhase, h, h0, hc, hs]

theorem initializePhase_init
    (h : scanComponents phase g.components {} g = (.ok, round, g'))
    (h0 : round.pendingCount ≠ 0) (hc : round.candidate = some c)
    (hi : initializeComponent cb c g' = (e, g'')) :
    initializePhase cb phase (n + 1) g =
      if e ≠ .ok then some (e, g'') else initializePhase cb phase n g'' := by
  simp [initializePhase, h, h0, hc, hi]

end Round

/-- `initialize_phase` returns within one round more than there are pending
    components of the phase, and follows `PhaseRun`. -/
theorem initializePhase_lifecycle (hacc : Accepted comps) (hp : p.Inv comps cb) {fuel : Nat}
    (hfuel : p.pendingCount comps phase < fuel) :
    ∃ r p', PhaseRun comps cb phase p r p' ∧
      initializePhase cb phase fuel (p.lifecycle comps cb) = some (r, p'.lifecycle comps cb) := by
  induction fuel generalizing p with
  | zero => omega
  | succ fuel ih =>
      obtain ⟨o, p', hscan, hres⟩ :=
        scanComponents_lifecycle phase hacc {} (fun _ h => h) hacc.nodup hp
      have hp' : p'.Inv comps cb := hscan.inv (fun _ h => h) hp
      cases o with
      | some c =>
          obtain ⟨round', hround⟩ := hres
          exact ⟨.dependency, p', PhaseRun.halt hscan, initializePhase_halt hround (by decide)⟩
      | none =>
          simp only [Nat.zero_add, Bool.false_or] at hres
          by_cases hpc : p.pendingCount comps phase = 0
          · -- no component of the phase is left
            have hno : ∀ c ∈ comps, ¬ (c.phase = phase ∧ p.Pending c) := by
              intro c hc hcp
              have : c ∈ comps.filter fun c => c.phase = phase ∧ p.Pending c :=
                List.mem_filter.mpr ⟨hc, by simpa using hcp⟩
              rw [List.length_eq_zero_iff.mp hpc] at this
              cases this
            have heq := hscan.eq_of_no_pending hno
            subst heq
            exact ⟨.ok, p', PhaseRun.done hscan fun c hc hph hpd => hno c hc ⟨hph, hpd⟩,
              initializePhase_done hres hpc⟩
          · cases hcand : nextInit comps cb phase p.called with
            | none =>
                by_cases hlen : p.skipped.length < p'.skipped.length
                · -- a round that only skips
                  have hne : p' ≠ p := by rintro rfl; omega
                  have hlt := hscan.pendingCount_lt hne
                  obtain ⟨r, p'', hrun, hfin⟩ := ih hp' (by omega)
                  exact ⟨r, p'', PhaseRun.again hscan hne hcand hrun,
                    (initializePhase_again hres hpc hcand (decide_eq_true hlen)).trans hfin⟩
                · have heq := hscan.eq_of_length hlen
                  subst heq
                  have hex : ∃ c ∈ comps, c.phase = phase ∧ p'.Pending c := by
                    obtain ⟨c, hc⟩ := List.exists_mem_of_length_pos (Nat.pos_of_ne_zero hpc)
                    obtain ⟨hc, hcp⟩ := List.mem_filter.mp hc
                    exact ⟨c, hc, by simpa using hcp⟩
                  exact ⟨.dependency, p', PhaseRun.stuck hscan hex hcand,
                    initializePhase_stuck hres hpc hcand (decide_eq_false hlen)⟩
            | some c =>
                -- the init of the candidate takes it off the pending components
                obtain ⟨hc, hel, -⟩ := nextInit_eq_some hcand
                have hel' : Eligible cb phase p'.called c := by
                  rw [hscan.called_eq]
                  exact hel
                have hcp' : p'.Pending c := hel'.pending hacc hp' hc
                have hstep := initializePhase_init (n := fuel) (g := p.lifecycle comps cb)
                  hres hpc hcand (initializeComponent_lifecycle hcp')
                by_cases hbad : cb.init c.id ≠ .ok ∧ c.policy = policyRequired
                · rw [if_pos hbad, if_pos hbad.1] at hstep
                  exact ⟨cb.init c.id, p'.call c,
                    PhaseRun.fail hscan hcand hbad.1 hbad.2, hstep⟩
                · rw [if_neg hbad, if_neg (by simp)] at hstep
                  have hsub : ∀ e, (p'.call c).Pending e → p.Pending e := fun e he =>
                    hscan.pending_of_pending
                      (Progress.Pending.of_append [c] [] rfl (by simp) he)
                  have hlt : (p'.call c).pendingCount comps phase <
                      p.pendingCount comps phase :=
                    Progress.pendingCount_lt hsub hc hel.1 (hscan.pending_of_pending hcp')
                      (fun h => h.1 (by simp))
                  obtain ⟨r, p'', hrun, hfin⟩ :=
                    ih (hp'.call hc hcp' hel'.2.2) (by omega)
                  exact ⟨r, p'', PhaseRun.next hscan hcand hbad hrun, hstep.trans hfin⟩

theorem PhaseRun.inv (hacc : Accepted comps) (h : PhaseRun comps cb phase p r p')
    (hp : p.Inv comps cb) : p'.Inv comps cb := by
  -- the init call of a round keeps the invariant of the scan before it
  have hcall : ∀ {p p' c}, p.Inv comps cb → ScanRun cb phase comps p none p' →
      nextInit comps cb phase p.called = some c → (p'.call c).Inv comps cb := by
    intro p p' c hp hscan hcand
    have hp' := hscan.inv (fun _ h => h) hp
    obtain ⟨hc, hel, -⟩ := nextInit_eq_some hcand
    rw [← hscan.called_eq] at hel
    exact hp'.call hc (hel.pending hacc hp' hc) hel.2.2
  induction h with
  | halt hscan => exact hscan.inv (fun _ h => h) hp
  | done => exact hp
  | stuck => exact hp
  | again hscan _ _ _ ih => exact ih (hscan.inv (fun _ h => h) hp)
  | fail hscan hcand => exact hcall hp hscan hcand
  | next hscan hcand _ _ ih => exact ih (hcall hp hscan hcand)

/-- A phase appends to both lists, and calls only the inits of its own. -/
theorem PhaseRun.append (h : PhaseRun comps cb phase p r p') :
    ∃ pc ps, p'.called = p.called ++ pc ∧ p'.skipped = p.skipped ++ ps ∧
      ∀ c ∈ pc, c.phase = phase := by
  -- one round: a scan, followed by at most one init call of the phase
  have hround : ∀ {p p' c}, ScanRun cb phase comps p none p' →
      nextInit comps cb phase p.called = some c →
      ∃ ps, (p'.call c).called = p.called ++ [c] ∧ (p'.call c).skipped = p.skipped ++ ps ∧
        c.phase = phase := by
    intro p p' c hscan hcand
    obtain ⟨ps, hps, -⟩ := hscan.skipped_append
    exact ⟨ps, by simp [hscan.called_eq], by simp [hps], (nextInit_eq_some hcand).2.1.1⟩
  induction h with
  | halt hscan =>
      obtain ⟨ps, hps, -⟩ := hscan.skipped_append
      exact ⟨[], ps, by simp [hscan.called_eq], hps, by simp⟩
  | done => exact ⟨[], [], by simp, by simp, by simp⟩
  | stuck => exact ⟨[], [], by simp, by simp, by simp⟩
  | again hscan _ _ _ ih =>
      obtain ⟨pc, ps, hpc, hps, hph⟩ := ih
      obtain ⟨ps', hps', -⟩ := hscan.skipped_append
      exact ⟨pc, ps' ++ ps, by rw [hpc, hscan.called_eq], by rw [hps, hps']; simp, hph⟩
  | fail hscan hcand =>
      obtain ⟨ps, hpc, hps, hph⟩ := hround hscan hcand
      exact ⟨_, ps, hpc, hps, by simpa using hph⟩
  | @next p p' c r p'' hscan hcand _ _ ih =>
      obtain ⟨pc, ps, hpc, hps, hph⟩ := ih
      obtain ⟨ps', hpc', hps', hph'⟩ := hround hscan hcand
      refine ⟨c :: pc, ps' ++ ps, by rw [hpc, hpc']; simp, by rw [hps, hps']; simp, ?_⟩
      intro e he
      rcases List.mem_cons.mp he with rfl | he
      · exact hph'
      · exact hph e he

theorem PhaseRun.pending_of_pending (h : PhaseRun comps cb phase p r p')
    (hp : p'.Pending c) : p.Pending c := by
  obtain ⟨pc, ps, hpc, hps, -⟩ := h.append
  exact Progress.Pending.of_append pc ps hpc hps hp

/-- A phase that returns `SYS_OK` leaves none of its components DISCOVERED. -/
theorem PhaseRun.resolved (h : PhaseRun comps cb phase p r p') (hr : r = .ok) :
    ∀ c ∈ comps, c.phase = phase → ¬ p'.Pending c := by
  induction h with
  | halt => cases hr
  | done _ hno => exact hno
  | stuck => cases hr
  | again _ _ _ _ ih => exact ih hr
  | fail _ _ hne => exact absurd hr hne
  | next _ _ _ _ ih => exact ih hr

/-- No required component is FAILED or SKIPPED. -/
def Progress.RequiredUp (cb : Callbacks) (p : Progress) : Prop :=
  (∀ c ∈ p.called, c.policy = policyRequired → cb.init c.id = .ok) ∧
    ∀ c ∈ p.skipped, c.policy ≠ policyRequired

/-- A phase that returns `SYS_OK` leaves every required component up. -/
theorem PhaseRun.requiredUp (h : PhaseRun comps cb phase p r p') (hr : r = .ok)
    (hp : p.RequiredUp cb) : p'.RequiredUp cb := by
  induction h with
  | halt => cases hr
  | done => exact hp
  | stuck => cases hr
  | again hscan _ _ _ ih =>
      refine ih hr ⟨?_, hscan.optional hp.2⟩
      rw [hscan.called_eq]
      exact hp.1
  | fail _ _ hne => exact absurd hr hne
  | @next p p' c r p'' hscan _ hbad _ ih =>
      refine ih hr ⟨?_, hscan.optional hp.2⟩
      intro e he hreq
      rcases List.mem_append.mp he with he | he
      · rw [hscan.called_eq] at he
        exact hp.1 e he hreq
      · rw [List.mem_singleton.mp he] at hreq ⊢
        by_contra hne
        exact hbad ⟨hne, hreq⟩

/-- A scan that runs to its end skips whatever was doomed before it. -/
theorem ScanRun.not_pending_of_doomed {l : List ComponentDesc} {o : Option ComponentDesc}
    (h : ScanRun cb phase l p o p') (ho : o = none) (hc : c ∈ l) (hph : c.phase = phase)
    (hd : p.Doomed cb c) : ¬ p'.Pending c := by
  induction h with
  | nil => cases hc
  | keep hnot hrest ih =>
      rcases List.mem_cons.mp hc with rfl | hc
      · intro hp'
        exact hnot ⟨hrest.pending_of_pending hp', hph, hd⟩
      · exact ih ho hc hd
  | @skip e rest p r p' _ _ _ _ hrest ih =>
      rcases List.mem_cons.mp hc with rfl | hc
      · intro hp'
        exact (hrest.pending_of_pending hp').2 (by simp)
      · exact ih ho hc hd.skip
  | halt => cases ho

/-- A required component that is not init-ok, or a component the recursion does not
    decide about. -/
def InitObstacle (comps : List ComponentDesc) (cb : Callbacks) : Prop :=
  (∃ c ∈ comps, c.policy = policyRequired ∧ ¬ InitOk comps cb c.id) ∨
    ∃ c ∈ comps, ¬ Settled comps cb c.id

/-- With no component left to initialize, the init-ok components of the phases so far
    are initialized. -/
theorem Progress.Inv.initDone_of_stuck (hacc : Accepted comps) (hp : p.Inv comps cb)
    (hlow : ∀ c ∈ comps, c.phase < phase → ¬ p.Pending c)
    (hnone : nextInit comps cb phase p.called = none) {i : UInt32} (hi : InitOk comps cb i) :
    ∀ c ∈ comps, c.id = i → c.phase ≤ phase → InitDone cb p.called i := by
  induction hi with
  | @intro e he _ hok ih =>
      intro c hc hid hle
      obtain rfl := eq_of_id_eq hacc.nodup hc he hid
      have hready : Ready cb p.called c := by
        intro d hd
        obtain ⟨f, hf, rfl, hfle⟩ := hacc.known c hc d hd
        exact ih _ hd f hf rfl (by omega)
      refine ⟨?_, hok⟩
      by_contra hnc
      by_cases hlt : c.phase < phase
      · exact hlow c hc hlt ⟨hnc, hp.not_skipped_of_ready hacc.nodup hc hready⟩
      · exact nextInit_eq_none hnone c hc ⟨by omega, hnc, hready⟩

/-- With no component left to initialize or to skip, the components of the phases so
    far that the recursion gives up are FAILED or SKIPPED. -/
theorem Progress.Inv.down_of_stuck (hacc : Accepted comps) (hp : p.Inv comps cb)
    (hlow : ∀ c ∈ comps, c.phase < phase → ¬ p.Pending c)
    (hnone : nextInit comps cb phase p.called = none)
    (hdoom : ∀ c ∈ comps, c.phase = phase → p.Doomed cb c → ¬ p.Pending c) {i : UInt32}
    (hi : InitDown comps cb i) :
    ∀ c ∈ comps, c.id = i → c.phase ≤ phase → p.Down cb i := by
  induction hi with
  | @fail e he hdeps hne =>
      intro c hc hid hle
      obtain rfl := eq_of_id_eq hacc.nodup hc he hid
      have hready : Ready cb p.called c := by
        intro d hd
        obtain ⟨f, hf, rfl, hfle⟩ := hacc.known c hc d hd
        exact hp.initDone_of_stuck hacc hlow hnone (hdeps _ hd) f hf rfl (by omega)
      refine Or.inl ⟨?_, hne⟩
      by_contra hnc
      by_cases hlt : c.phase < phase
      · exact hlow c hc hlt ⟨hnc, hp.not_skipped_of_ready hacc.nodup hc hready⟩
      · exact nextInit_eq_none hnone c hc ⟨by omega, hnc, hready⟩
  | @skip e pre d post he heq hpre _ ih =>
      intro c hc hid hle
      obtain rfl := eq_of_id_eq hacc.nodup hc he hid
      have hphase : ∀ x ∈ c.dependencies, ∃ f ∈ comps, f.id = x ∧ f.phase ≤ phase := by
        intro x hx
        obtain ⟨f, hf, hfid, hfle⟩ := hacc.known c hc x hx
        exact ⟨f, hf, hfid, by omega⟩
      have hdown : p.Down cb d := by
        obtain ⟨f, hf, hfid, hfle⟩ := hphase d (by rw [heq]; simp)
        exact ih f hf hfid hfle
      have hdoomed : p.Doomed cb c := by
        refine ⟨pre, d, post, heq, fun x hx => ?_, hdown⟩
        obtain ⟨f, hf, rfl, hfle⟩ := hphase x (by rw [heq]; simp [hx])
        exact hp.initDone_of_stuck hacc hlow hnone (hpre _ hx) f hf rfl hfle
      have hnp : ¬ p.Pending c := by
        by_cases hlt : c.phase < phase
        · exact hlow c hc hlt
        · exact hdoom c hc (by omega) hdoomed
      refine Or.inr ?_
      by_contra hs
      refine hnp ⟨fun hm => ?_, hs⟩
      -- a called component had its dependencies initialized
      obtain ⟨f, hf, hfid⟩ := List.mem_map.mp hm
      obtain rfl := eq_of_id_eq hacc.nodup (hp.called_mem f hf) hc hfid
      obtain ⟨a, b, hab⟩ := List.append_of_mem hf
      have hdone := hp.called_ready a f b hab d (by rw [heq]; simp)
      refine hp.not_down_of_initDone ?_ hdown
      rw [hab]
      exact hdone.append _

/-- `initialize_phase` only fails on an obstacle. -/
theorem PhaseRun.obstacle (hacc : Accepted comps) (h : PhaseRun comps cb phase p r p')
    (hr : r ≠ .ok) (hp : p.Inv comps cb)
    (hlow : ∀ c ∈ comps, c.phase < phase → ¬ p.Pending c) : InitObstacle comps cb := by
  induction h with
  | @halt p c p' hscan =>
      -- the required component at which the scan stops
      have hp' := hscan.inv (fun _ h => h) hp
      have hstop : ∀ {l o p p'}, ScanRun cb phase l p o p' → o = some c →
          c ∈ p'.skipped ∧ c.policy = policyRequired := by
        intro l o p p' h
        induction h with
        | nil => intro h; cases h
        | keep _ _ ih => exact ih
        | skip _ _ _ _ _ ih => exact ih
        | halt _ _ _ hreq => intro h; cases h; exact ⟨by simp, hreq⟩
      obtain ⟨hs, hreq⟩ := hstop hscan rfl
      exact Or.inl ⟨c, hp'.skipped_mem c hs, hreq,
        hp'.not_initOk_of_down hacc.nodup (Or.inr (mem_ids_of_mem hs))⟩
  | done => exact absurd rfl hr
  | @stuck p hscan hex hnone =>
      obtain ⟨c, hc, hph, hpend⟩ := hex
      refine Or.inr ⟨c, hc, ?_⟩
      rintro (hi | hi)
      · exact hpend.1 (hp.initDone_of_stuck hacc hlow hnone hi c hc rfl (by omega)).1
      · rcases hp.down_of_stuck hacc hlow hnone
          (fun e he heph hd => hscan.not_pending_of_doomed rfl he heph hd) hi c hc rfl
          (by omega) with ⟨hm, -⟩ | hs
        · exact hpend.1 hm
        · exact hpend.2 hs
  | again hscan _ _ _ ih =>
      exact ih hr (hscan.inv (fun _ h => h) hp)
        fun c hc hlt hp' => hlow c hc hlt (hscan.pending_of_pending hp')
  | @fail p p' c hscan hcand hne hreq =>
      obtain ⟨hc, -, -⟩ := nextInit_eq_some hcand
      refine Or.inl ⟨c, hc, hreq, fun hi => ?_⟩
      exact hne ((initOk_iff hacc.nodup hc).mp hi).2
  | @next p p' c r p'' hscan hcand hbad hrun ih =>
      have hp' := hscan.inv (fun _ h => h) hp
      obtain ⟨hc, hel, -⟩ := nextInit_eq_some hcand
      rw [← hscan.called_eq] at hel
      refine ih hr (hp'.call hc (hel.pending hacc hp' hc) hel.2.2) fun e he hlt hpe => ?_
      exact hlow e he hlt (hscan.pending_of_pending
        (Progress.Pending.of_append [c] [] rfl (by simp) hpe))

end Phase

/-! ## The whole pass -/

section Pass

variable {p p' : Progress} {r : SysErr} {phases : List Nat}

theorem initializePhases_lifecycle (hacc : Accepted comps) (hp : p.Inv comps cb)
    (phases : List Nat) :
    ∃ r p', PassRun comps cb phases p r p' ∧ p'.Inv comps cb ∧
      initializePhases cb phases (p.lifecycle comps cb) = some (r, p'.lifecycle comps cb) := by
  induction phases generalizing p with
  | nil => exact ⟨.ok, p, PassRun.nil p, hp, rfl⟩
  | cons phase rest ih =>
      have hfuel : p.pendingCount comps phase < comps.length + 1 :=
        Nat.lt_succ_of_le (List.length_filter_le _ _)
      obtain ⟨r, p', hrun, heq⟩ := initializePhase_lifecycle hacc hp hfuel
      have hp' := hrun.inv hacc hp
      by_cases hr : r = .ok
      · subst hr
        obtain ⟨r', p'', hrun', hp'', heq'⟩ := ih hp'
        exact ⟨r', p'', PassRun.next hrun hrun', hp'', by simp [initializePhases, heq, heq']⟩
      · exact ⟨r, p', PassRun.error hrun hr, hp', by simp [initializePhases, heq, hr]⟩

theorem PassRun.pending_of_pending (h : PassRun comps cb phases p r p') {c : ComponentDesc}
    (hp : p'.Pending c) : p.Pending c := by
  induction h with
  | nil => exact hp
  | error hrun _ => exact hrun.pending_of_pending hp
  | next hrun _ ih => exact hrun.pending_of_pending (ih hp)

/-- A pass that returns `SYS_OK` leaves no component of its phases DISCOVERED. -/
theorem PassRun.resolved (h : PassRun comps cb phases p r p') (hr : r = .ok) :
    ∀ c ∈ comps, c.phase ∈ phases → ¬ p'.Pending c := by
  induction h with
  | nil => intro c _ hph; cases hph
  | error _ hne => exact absurd hr hne
  | next hrun hrest ih =>
      intro c hc hph
      rcases List.mem_cons.mp hph with hph | hph
      · exact fun hp => hrun.resolved rfl c hc hph (hrest.pending_of_pending hp)
      · exact ih hr c hc hph

theorem PassRun.requiredUp (h : PassRun comps cb phases p r p') (hr : r = .ok)
    (hp : p.RequiredUp cb) : p'.RequiredUp cb := by
  induction h with
  | nil => exact hp
  | error _ hne => exact absurd hr hne
  | next hrun _ ih => exact ih hr (hrun.requiredUp rfl hp)

/-- The pass over the phases from `k` on only fails on an obstacle. -/
theorem PassRun.obstacle (hacc : Accepted comps) (h : PassRun comps cb phases p r p')
    (hr : r ≠ .ok) (hp : p.Inv comps cb) {k : Nat}
    (hphases : phases = List.range' k (phaseCount - k))
    (hlow : ∀ c ∈ comps, c.phase < k → ¬ p.Pending c) : InitObstacle comps cb := by
  induction h generalizing k with
  | nil => exact absurd rfl hr
  | @error phase rest p r p' hrun hne =>
      have hk : phase = k := by
        cases hn : phaseCount - k with
        | zero => rw [hn] at hphases; simp at hphases
        | succ n =>
            rw [hn, List.range'_succ] at hphases
            exact (List.cons.inj hphases).1
      subst hk
      exact hrun.obstacle hacc hr hp hlow
  | @next phase rest p p' r p'' hrun hrest ih =>
      cases hn : phaseCount - k with
      | zero => rw [hn] at hphases; simp at hphases
      | succ n =>
          rw [hn, List.range'_succ] at hphases
          obtain ⟨rfl, hrest'⟩ := List.cons.inj hphases
          refine ih hr (hrun.inv hacc hp) (k := phase + 1)
            (by rw [hrest']; congr 1; omega) ?_
          intro c hc hlt hpc
          by_cases hph : c.phase = phase
          · exact hrun.resolved rfl c hc hph hpc
          · exact hlow c hc (by omega) (hrun.pending_of_pending hpc)

end Pass

end Rounds

end Component
end AppCore
