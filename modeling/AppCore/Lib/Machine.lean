/-
  AppCore.Lib.Machine

  Labelled machines, their runs and the induction rules for them.  Nothing here
  depends on what the states and the events are.
-/

import Mathlib.Data.List.Basic

/-- A machine: the states it may start in, and its steps, each with an event. -/
structure Machine (State Event : Type*) where
  start : State → Prop
  step : State → Event → State → Prop

namespace Machine

variable {State Event : Type*}

/-- `M.Run s es t`: from `s` the machine can reach `t` by the events `es`. -/
inductive Run (M : Machine State Event) (s : State) : List Event → State → Prop
  | nil : Run M s [] s
  | snoc {es u e t} : Run M s es u → M.step u e t → Run M s (es ++ [e]) t

/-- `t` is reached by some run from a start state. -/
def Reachable (M : Machine State Event) (t : State) : Prop :=
  ∃ s es, M.start s ∧ M.Run s es t

/-- A run from a start state as the list of its steps, the last one at the end. -/
inductive Path (M : Machine State Event) : List (State × Event × State) → State → Prop
  | start {s} : M.start s → Path M [] s
  | snoc {p s e t} : Path M p s → M.step s e t → Path M (p ++ [(s, e, t)]) t

/-- The machine with the steps that satisfy a condition only. -/
def restrict (M : Machine State Event) (G : State → Event → State → Prop) :
    Machine State Event where
  start := M.start
  step s e t := M.step s e t ∧ G s e t

section Rules

variable {M : Machine State Event} {s t u : State} {es fs : List Event} {e : Event}

theorem Run.single (h : M.step s e t) : M.Run s [e] t := Run.snoc Run.nil h

theorem Run.append (h : M.Run s es u) (h' : M.Run u fs t) : M.Run s (es ++ fs) t := by
  induction h' with
  | nil => rwa [List.append_nil]
  | snoc _ hstep ih =>
      rw [← List.append_assoc]
      exact Run.snoc ih hstep

/-- What every step preserves holds at the end of a run. -/
theorem Run.invariant {I : State → Prop} (hstep : ∀ u e v, I u → M.step u e v → I v)
    (h : M.Run s es t) (hs : I s) : I t := by
  induction h with
  | nil => exact hs
  | snoc _ hlast ih => exact hstep _ _ _ ih hlast

/-- What holds at the start and is preserved by every step is reachable-invariant. -/
theorem Reachable.invariant {I : State → Prop} (hstart : ∀ s, M.start s → I s)
    (hstep : ∀ u e v, I u → M.step u e v → I v) (h : M.Reachable t) : I t := by
  obtain ⟨s, es, hs, hrun⟩ := h
  exact hrun.invariant hstep (hstart s hs)

theorem Reachable.step (h : M.Reachable s) (hstep : M.step s e t) : M.Reachable t := by
  obtain ⟨s₀, es, hs, hrun⟩ := h
  exact ⟨s₀, es ++ [e], hs, Run.snoc hrun hstep⟩

theorem Reachable.run (h : M.Reachable s) (hrun : M.Run s es t) : M.Reachable t := by
  obtain ⟨s₀, fs, hs, hrun₀⟩ := h
  exact ⟨s₀, fs ++ es, hs, hrun₀.append hrun⟩

/-- A relation between the states of a machine and the events so far. -/
theorem Run.history {R : List Event → State → Prop} (hnil : R [] s)
    (hsnoc : ∀ es u e v, M.Run s es u → R es u → M.step u e v → R (es ++ [e]) v)
    (h : M.Run s es t) : R es t := by
  induction h with
  | nil => exact hnil
  | snoc hrun hlast ih => exact hsnoc _ _ _ _ hrun ih hlast

/-- A property that holds at the start of a run and not at its end is lost at one of
    its steps. -/
theorem Run.exists_losing_step {P : State → Prop} (h : M.Run s es t) (hs : P s) (ht : ¬ P t) :
    ∃ pre e post u v, es = pre ++ e :: post ∧ M.Run s pre u ∧ M.step u e v ∧ P u ∧ ¬ P v := by
  induction h with
  | nil => exact absurd hs ht
  | @snoc es u e t hrun hlast ih =>
      by_cases hu : P u
      · exact ⟨es, e, [], u, t, rfl, hrun, hlast, hu, ht⟩
      · obtain ⟨pre, e', post, v, w, rfl, hpre, hstep, hv, hw⟩ := ih hu
        exact ⟨pre, e', post ++ [e], v, w, by simp, hpre, hstep, hv, hw⟩

theorem Run.of_restrict {G : State → Event → State → Prop} (h : (M.restrict G).Run s es t) :
    M.Run s es t := by
  induction h with
  | nil => exact Run.nil
  | snoc _ hlast ih => exact Run.snoc ih hlast.1

section Path

variable {p : List (State × Event × State)} {x : State × Event × State}

theorem Path.reachable (h : M.Path p s) : M.Reachable s := by
  induction h with
  | start hs => exact ⟨_, [], hs, Run.nil⟩
  | snoc _ hstep ih => exact ih.step hstep

/-- Every run from a start state is a path with the same events. -/
theorem Run.exists_path (h : M.Run s es t) (hs : M.start s) :
    ∃ p, M.Path p t ∧ p.map (fun x => x.2.1) = es := by
  induction h with
  | nil => exact ⟨[], Path.start hs, rfl⟩
  | snoc _ hstep ih =>
      obtain ⟨p, hp, hes⟩ := ih
      refine ⟨_, Path.snoc hp hstep, ?_⟩
      rw [List.map_append, hes]
      rfl

theorem Reachable.exists_path (h : M.Reachable s) : ∃ p, M.Path p s := by
  obtain ⟨s₀, es, hs, hrun⟩ := h
  obtain ⟨p, hp, -⟩ := hrun.exists_path hs
  exact ⟨p, hp⟩

/-- Every step of a path starts in a reachable state. -/
theorem Path.step_of_mem (h : M.Path p s) (hx : x ∈ p) :
    M.Reachable x.1 ∧ M.step x.1 x.2.1 x.2.2 := by
  induction h with
  | start => cases hx
  | snoc hp hstep ih =>
      rcases List.mem_append.mp hx with hmem | hlast
      · exact ih hmem
      · obtain rfl := List.mem_singleton.mp hlast
        exact ⟨hp.reachable, hstep⟩

/-- What holds at the start and is preserved by every step holds along every path. -/
theorem Path.invariant {I : List (State × Event × State) → State → Prop}
    (hstart : ∀ s, M.start s → I [] s)
    (hsnoc : ∀ p u e v, M.Path p u → I p u → M.step u e v → I (p ++ [(u, e, v)]) v)
    (h : M.Path p s) : I p s := by
  induction h with
  | start hs => exact hstart _ hs
  | snoc hp hstep ih => exact hsnoc _ _ _ _ hp ih hstep

end Path

/-- Steps of a kind that lower a measure lead, by themselves, to where there is none left. -/
theorem exists_run_of_measure {I Q : State → Prop} {A : Event → Prop} (μ : State → Nat)
    (hstep : ∀ s, I s → ¬ Q s → ∃ e t, A e ∧ M.step s e t ∧ I t ∧ μ t < μ s) (hs : I s) :
    ∃ es t, (∀ e ∈ es, A e) ∧ es.length ≤ μ s ∧ M.Run s es t ∧ I t ∧ Q t := by
  induction hμ : μ s using Nat.strongRecOn generalizing s with
  | ind m ih =>
      by_cases hQ : Q s
      · exact ⟨[], s, fun _ h => (by cases h), Nat.zero_le _, Run.nil, hs, hQ⟩
      · obtain ⟨e, t, hA, hfirst, ht, hlt⟩ := hstep s hs hQ
        obtain ⟨es, u, hes, hlength, hrun, hu, hdone⟩ := ih (μ t) (hμ ▸ hlt) ht rfl
        have hsingle : M.Run s [e] t := Run.single hfirst
        refine ⟨e :: es, u, fun e' he' => ?_, ?_, hsingle.append hrun, hu, hdone⟩
        · rcases List.mem_cons.mp he' with rfl | hmem
          · exact hA
          · exact hes e' hmem
        · rw [List.length_cons]
          omega

end Rules

/-! ## Machines given by a function -/

/-- The machine of a partial step function. -/
def ofNext (start : State → Prop) (next : State → Event → Option State) :
    Machine State Event where
  start := start
  step s e t := next s e = some t

/-- The state after a list of events, if all of them can happen. -/
def exec (next : State → Event → Option State) (s : State) : List Event → Option State
  | [] => some s
  | e :: es => (next s e).bind fun t => exec next t es

theorem Run.of_exec {start : State → Prop} {next : State → Event → Option State} {s t : State}
    {es : List Event} (h : exec next s es = some t) : (ofNext start next).Run s es t := by
  induction es generalizing s with
  | nil =>
      obtain rfl : s = t := by simpa [exec] using h
      exact Run.nil
  | cons e es ih =>
      obtain ⟨u, hu, ht⟩ := Option.bind_eq_some_iff.mp h
      have hfirst : (ofNext start next).Run s [e] u := Run.single hu
      exact hfirst.append (ih ht)

/-- Every event of a list satisfies a condition when its turn comes. -/
def Along (next : State → Event → Option State) (G : State → Event → Prop) (s : State) :
    List Event → Prop
  | [] => True
  | e :: es => G s e ∧ ∀ t, next s e = some t → Along next G t es

theorem Run.of_exec_along {start : State → Prop} {next : State → Event → Option State}
    {G : State → Event → Prop} {s t : State} {es : List Event} (h : exec next s es = some t)
    (hG : Along next G s es) : ((ofNext start next).restrict fun s e _ => G s e).Run s es t := by
  induction es generalizing s with
  | nil =>
      obtain rfl : s = t := by simpa [exec] using h
      exact Run.nil
  | cons e es ih =>
      obtain ⟨u, hu, ht⟩ := Option.bind_eq_some_iff.mp h
      have hfirst : ((ofNext start next).restrict fun s e _ => G s e).Run s [e] u :=
        Run.single ⟨hu, hG.1⟩
      exact hfirst.append (ih ht (hG.2 u hu))

/-- The first event of a list leads to a state that is known. -/
theorem Along.cons {next : State → Event → Option State} {G : State → Event → Prop}
    {s t : State} {e : Event} {es : List Event} (hG : G s e) (hnext : next s e = some t)
    (h : Along next G t es) : Along next G s (e :: es) := by
  refine ⟨hG, fun u hu => ?_⟩
  obtain rfl := Option.some.inj (hnext.symm.trans hu)
  exact h

theorem Along.of_forall {next : State → Event → Option State} {G : State → Event → Prop}
    {s : State} {es : List Event} (h : ∀ e ∈ es, ∀ s, G s e) : Along next G s es := by
  induction es generalizing s with
  | nil => trivial
  | cons e es ih =>
      refine ⟨h e List.mem_cons_self s, fun t _ => ih fun e' he' => ?_⟩
      exact h e' (List.mem_cons_of_mem e he')

/-- The state after a list of events, if all of them can happen and satisfy a condition. -/
def execIf (next : State → Event → Option State) (G : State → Event → Prop)
    [∀ s e, Decidable (G s e)] (s : State) : List Event → Option State
  | [] => some s
  | e :: es => if G s e then (next s e).bind fun t => execIf next G t es else none

theorem Run.of_execIf {start : State → Prop} {next : State → Event → Option State}
    {G : State → Event → Prop} [∀ s e, Decidable (G s e)] {s t : State} {es : List Event}
    (h : execIf next G s es = some t) :
    ((ofNext start next).restrict fun s e _ => G s e).Run s es t := by
  induction es generalizing s with
  | nil =>
      obtain rfl : s = t := by simpa [execIf] using h
      exact Run.nil
  | cons e es ih =>
      rw [execIf] at h
      split at h
      · rename_i hG
        obtain ⟨u, hu, ht⟩ := Option.bind_eq_some_iff.mp h
        have hfirst : ((ofNext start next).restrict fun s e _ => G s e).Run s [e] u :=
          Run.single ⟨hu, hG⟩
        exact hfirst.append (ih ht)
      · cases h

/-- The path that goes on with a list of events, if all of them can happen and satisfy a
    condition. -/
def pathIf (next : State → Event → Option State) (G : State → Event → Prop)
    [∀ s e, Decidable (G s e)] (p : List (State × Event × State)) (s : State) :
    List Event → Option (List (State × Event × State) × State)
  | [] => some (p, s)
  | e :: es =>
    if G s e then (next s e).bind fun t => pathIf next G (p ++ [(s, e, t)]) t es else none

theorem Path.of_pathIf {start : State → Prop} {next : State → Event → Option State}
    {G : State → Event → Prop} [∀ s e, Decidable (G s e)] {p q : List (State × Event × State)}
    {s t : State} {es : List Event}
    (hp : ((ofNext start next).restrict fun s e _ => G s e).Path p s)
    (h : pathIf next G p s es = some (q, t)) :
    ((ofNext start next).restrict fun s e _ => G s e).Path q t := by
  induction es generalizing p s with
  | nil =>
      obtain ⟨rfl, rfl⟩ : p = q ∧ s = t := by simpa [pathIf] using h
      exact hp
  | cons e es ih =>
      rw [pathIf] at h
      split at h
      · rename_i hG
        obtain ⟨u, hu, ht⟩ := Option.bind_eq_some_iff.mp h
        exact ih (hp.snoc ⟨hu, hG⟩) ht
      · cases h

end Machine
