/-
  AppCore.Component.Graph

  The dependency graph of a component table: what a table accepted by
  `collect_components` looks like, and the two recursions over the graph that
  say which components can be initialized and which can run, whatever the order
  in which the framework works through them.
-/

import AppCore.Component.Model
import Mathlib.Data.List.Nodup
import Mathlib.Order.WellFounded
import Mathlib.Data.Fintype.EquivFin
import Mathlib.Order.Preorder.Finite

namespace AppCore
namespace Component

/-- The ids of a list of components. -/
abbrev ids (l : List ComponentDesc) : List UInt32 := l.map (·.id)

/-- A filter that drops a member another one keeps is shorter. -/
theorem length_filter_lt {α : Type*} {l : List α} {P Q : α → Prop} [DecidablePred P]
    [DecidablePred Q] (hsub : ∀ x, Q x → P x) {c : α} (hc : c ∈ l) (hp : P c) (hq : ¬ Q c) :
    (l.filter fun x => Q x).length < (l.filter fun x => P x).length := by
  have hff : (l.filter fun x => Q x) = (l.filter fun x => P x).filter fun x => Q x := by
    rw [List.filter_filter]
    apply List.filter_congr
    intro x _
    by_cases h : Q x
    · simp [h, hsub x h]
    · simp [h]
  rw [hff]
  exact List.length_filter_lt_length_iff_exists.mpr
    ⟨c, List.mem_filter.mpr ⟨hc, by simp [hp]⟩, by simp [hq]⟩

theorem mem_ids_of_mem {l : List ComponentDesc} {c : ComponentDesc} (h : c ∈ l) :
    c.id ∈ ids l :=
  List.mem_map_of_mem h

/-- Quantifiers over a dependency list are decided along the list, not over all ids. -/
instance (priority := high) decidableForallDependency {P : UInt32 → Prop} [DecidablePred P]
    (dependencies : List UInt32) : Decidable (∀ d ∈ dependencies, P d) :=
  List.decidableBAll P dependencies

/-! ## Accepted tables -/

/-- What `validate_components` establishes of the table. -/
structure Accepted (comps : List ComponentDesc) : Prop where
  /-- Ids are pairwise distinct. -/
  nodup : (ids comps).Nodup
  /-- Every dependency is in the table, in the same or an earlier phase. -/
  known : ∀ c ∈ comps, ∀ d ∈ c.dependencies, ∃ e ∈ comps, e.id = d ∧ e.phase ≤ c.phase
  phase_lt : ∀ c ∈ comps, c.phase < phaseCount
  policy_le : ∀ c ∈ comps, c.policy ≤ policyOptional

section FindComponent

variable {comps : List ComponentDesc} {c e : ComponentDesc} {d : UInt32}

theorem findComponent_eq_some (h : findComponent comps d = some e) :
    e ∈ comps ∧ e.id = d := by
  unfold findComponent at h
  exact ⟨List.mem_of_find?_eq_some h, by simpa using List.find?_some h⟩

theorem eq_of_id_eq (hnd : (ids comps).Nodup) (hc : c ∈ comps) (he : e ∈ comps)
    (h : c.id = e.id) : c = e :=
  List.inj_on_of_nodup_map hnd hc he h

theorem findComponent_of_mem (hnd : (ids comps).Nodup) (hc : c ∈ comps) :
    findComponent comps c.id = some c := by
  cases hf : findComponent comps c.id with
  | none =>
      have := List.find?_eq_none.mp hf c hc
      simp at this
  | some e =>
      obtain ⟨he, hid⟩ := findComponent_eq_some hf
      rw [eq_of_id_eq hnd he hc hid]

end FindComponent

theorem validateDependencies_eq_ok_iff (comps : List ComponentDesc) (c : ComponentDesc)
    (deps : List UInt32) :
    validateDependencies comps c deps = .ok ↔
      ∀ d ∈ deps, ∃ e, findComponent comps d = some e ∧ e.phase ≤ c.phase := by
  induction deps with
  | nil => simp [validateDependencies]
  | cons d rest ih =>
      unfold validateDependencies
      cases hf : findComponent comps d with
      | none => simp [hf]
      | some e =>
          by_cases hp : e.phase > c.phase
          · simp [hf, hp]
          · simp [hf, hp, ih]
            omega

/-- The table check from one slot on. -/
theorem validateFrom_eq_ok_iff (comps rest : List ComponentDesc) :
    validateFrom comps rest = .ok ↔
      (ids rest).Nodup ∧
      (∀ c ∈ rest, c.id ≠ 0 ∧ c.name ≠ none ∧ c.hasInit = true ∧ c.phase < phaseCount ∧
        c.policy ≤ policyOptional) ∧
      ∀ c ∈ rest, ∀ d ∈ c.dependencies,
        ∃ e, findComponent comps d = some e ∧ e.phase ≤ c.phase := by
  induction rest with
  | nil => simp [validateFrom]
  | cons c rest ih =>
      unfold validateFrom
      by_cases hbad : c.id = 0 ∨ c.name = none ∨ c.hasInit = false ∨
          c.phase ≥ phaseCount ∨ c.policy > policyOptional
      · rw [if_pos hbad]
        constructor
        · intro h; cases h
        · rintro ⟨-, hf, -⟩
          obtain ⟨h1, h2, h3, h4, h5⟩ := hf c (List.mem_cons_self ..)
          rcases hbad with h | h | h | h | h
          · exact absurd h h1
          · exact absurd h h2
          · rw [h] at h3; cases h3
          · omega
          · omega
      · rw [if_neg hbad]
        push Not at hbad
        obtain ⟨h1, h2, h3, h4, h5⟩ := hbad
        have hin : c.hasInit = true := by simpa using h3
        by_cases hdup : rest.any (fun other => other.id = c.id) = true
        · rw [if_pos hdup]
          simp only [List.any_eq_true, decide_eq_true_eq] at hdup
          constructor
          · intro h; cases h
          · rintro ⟨hnd, -, -⟩
            obtain ⟨e, he, hid⟩ := hdup
            have : c.id ∉ ids rest := (List.nodup_cons.mp hnd).1
            exact absurd (hid ▸ mem_ids_of_mem he) this
        · rw [if_neg hdup]
          simp only [List.any_eq_true, decide_eq_true_eq, not_exists, not_and] at hdup
          have hnot : c.id ∉ ids rest := by
            intro hm
            obtain ⟨e, he, hid⟩ := List.mem_map.mp hm
            exact hdup e he hid
          by_cases hd : validateDependencies comps c c.dependencies = .ok
          · have hd' := (validateDependencies_eq_ok_iff comps c c.dependencies).mp hd
            simp only [hd, ne_eq, not_true_eq_false, if_false, ih, List.map_cons,
              List.nodup_cons, List.mem_cons, forall_eq_or_imp]
            constructor
            · rintro ⟨hn, hf, hk⟩
              exact ⟨⟨hnot, hn⟩, ⟨⟨h1, h2, hin, h4, h5⟩, hf⟩, hd', hk⟩
            · rintro ⟨⟨-, hn⟩, ⟨-, hf⟩, -, hk⟩
              exact ⟨hn, hf, hk⟩
          · simp only [ne_eq, hd, not_false_eq_true, if_true, false_iff]
            rintro ⟨-, -, hk⟩
            exact hd ((validateDependencies_eq_ok_iff comps c _).mpr
              (hk c (List.mem_cons_self ..)))

theorem accepted_of_validateComponents {comps : List ComponentDesc}
    (h : validateComponents comps = .ok) : Accepted comps := by
  obtain ⟨hn, hf, hk⟩ := (validateFrom_eq_ok_iff comps comps).mp h
  refine ⟨hn, ?_, fun c hc => (hf c hc).2.2.2.1, fun c hc => (hf c hc).2.2.2.2⟩
  intro c hc d hd
  obtain ⟨e, he, hp⟩ := hk c hc d hd
  obtain ⟨hm, hid⟩ := findComponent_eq_some he
  exact ⟨e, hm, hid, hp⟩

/-! ## Which components can be initialized, and which can run -/

section Graph

variable (comps : List ComponentDesc) (cb : Callbacks)

/-- `init-ok`: all dependencies are init-ok and the own init succeeds. -/
inductive InitOk : UInt32 → Prop
  | intro {c : ComponentDesc} : c ∈ comps → (∀ d ∈ c.dependencies, InitOk d) →
      cb.init c.id = .ok → InitOk c.id

/-- `running`: init-ok, all dependencies running, and the own start succeeds. -/
inductive RunOk : UInt32 → Prop
  | intro {c : ComponentDesc} : c ∈ comps → InitOk comps cb c.id →
      (∀ d ∈ c.dependencies, RunOk d) → cb.startResult c = .ok → RunOk c.id

/-- The initialization gives the component up: its own init fails, or the first
    dependency that is not init-ok is given up. -/
inductive InitDown : UInt32 → Prop
  | fail {c : ComponentDesc} : c ∈ comps → (∀ d ∈ c.dependencies, InitOk comps cb d) →
      cb.init c.id ≠ .ok → InitDown c.id
  | skip {c : ComponentDesc} {pre : List UInt32} {d : UInt32} {post : List UInt32} :
      c ∈ comps → c.dependencies = pre ++ d :: post → (∀ x ∈ pre, InitOk comps cb x) →
      InitDown d → InitDown c.id

/-- The recursion decides about the component; on a cycle it may not. -/
def Settled (i : UInt32) : Prop := InitOk comps cb i ∨ InitDown comps cb i

/-- Component `a` depends on component `b`. -/
def DependsOn (a b : UInt32) : Prop :=
  ∃ c ∈ comps, c.id = a ∧ b ∈ c.dependencies

/-- No component depends on itself, directly or through others. -/
def Acyclic : Prop := ∀ a, ¬ Relation.TransGen (DependsOn comps) a a

variable {comps cb}

theorem initOk_iff (hnd : (ids comps).Nodup) {c : ComponentDesc} (hc : c ∈ comps) :
    InitOk comps cb c.id ↔
      (∀ d ∈ c.dependencies, InitOk comps cb d) ∧ cb.init c.id = .ok := by
  constructor
  · intro h
    generalize hid : c.id = i at h
    cases h with
    | @intro e he hdeps hok =>
        have : c = e := eq_of_id_eq hnd hc he hid
        subst this
        exact ⟨hdeps, hok⟩
  · rintro ⟨hdeps, hok⟩
    exact InitOk.intro hc hdeps hok

theorem RunOk.initOk {i : UInt32} (h : RunOk comps cb i) : InitOk comps cb i := by
  cases h with
  | intro _ hinit _ _ => exact hinit

/-- In an acyclic table a non-empty set of components has a member that
    depends on no other member. -/
theorem Acyclic.exists_minimal (hac : Acyclic comps) (P : UInt32 → Prop)
    (hP : ∀ i, P i → i ∈ ids comps) (hne : ∃ i, P i) :
    ∃ i, P i ∧ ∀ d, DependsOn comps i d → ¬ P d := by
  let S := {i // i ∈ ids comps}
  let r : S → S → Prop := fun a b => Relation.TransGen (DependsOn comps) b.1 a.1
  have hirr : Std.Irrefl r := ⟨fun a h => hac a.1 h⟩
  have htr : IsTrans S r := ⟨fun a b c hab hbc => hbc.trans hab⟩
  have hwf : WellFounded r := Finite.wellFounded_of_trans_of_irrefl r
  obtain ⟨i₀, hi₀⟩ := hne
  obtain ⟨⟨i, hi⟩, hPi, hmin⟩ :=
    hwf.has_min {a : S | P a.1} ⟨⟨i₀, hP i₀ hi₀⟩, hi₀⟩
  refine ⟨i, hPi, fun d hd hPd => ?_⟩
  exact hmin ⟨d, hP d hPd⟩ hPd (Relation.TransGen.single hd)

/-- The first member of a list without a property. -/
theorem exists_first_not {α : Type*} {P : α → Prop} {l : List α} (h : ¬ ∀ x ∈ l, P x) :
    ∃ pre x post, l = pre ++ x :: post ∧ (∀ y ∈ pre, P y) ∧ ¬ P x := by
  induction l with
  | nil => exact absurd (by simp) h
  | cons x rest ih =>
      by_cases hx : P x
      · have hrest : ¬ ∀ y ∈ rest, P y := fun hr => h (List.forall_mem_cons.mpr ⟨hx, hr⟩)
        obtain ⟨pre, y, post, rfl, hpre, hy⟩ := ih hrest
        exact ⟨x :: pre, y, post, rfl, List.forall_mem_cons.mpr ⟨hx, hpre⟩, hy⟩
      · exact ⟨[], x, rest, rfl, by simp, hx⟩

/-- On an acyclic table the recursion decides about every component. -/
theorem Acyclic.settled (hac : Acyclic comps) (hacc : Accepted comps) :
    ∀ c ∈ comps, Settled comps cb c.id := by
  by_contra hex
  push Not at hex
  obtain ⟨c₀, hc₀, hns₀⟩ := hex
  obtain ⟨i, ⟨hi, hns⟩, hmin⟩ := hac.exists_minimal
    (fun i => i ∈ ids comps ∧ ¬ Settled comps cb i) (fun i h => h.1)
    ⟨c₀.id, mem_ids_of_mem hc₀, hns₀⟩
  obtain ⟨c, hc, rfl⟩ := List.mem_map.mp hi
  have hdeps : ∀ d ∈ c.dependencies, Settled comps cb d := by
    intro d hd
    obtain ⟨e, he, rfl, -⟩ := hacc.known c hc d hd
    by_contra hn
    exact hmin e.id ⟨c, hc, rfl, hd⟩ ⟨mem_ids_of_mem he, hn⟩
  by_cases hall : ∀ d ∈ c.dependencies, InitOk comps cb d
  · by_cases hok : cb.init c.id = .ok
    · exact hns (Or.inl (InitOk.intro hc hall hok))
    · exact hns (Or.inr (InitDown.fail hc hall hok))
  · obtain ⟨pre, d, post, heq, hpre, hd⟩ := exists_first_not hall
    have hdown := (hdeps d (by rw [heq]; simp)).resolve_left hd
    exact hns (Or.inr (InitDown.skip hc heq hpre hdown))

end Graph

end Component
end AppCore
