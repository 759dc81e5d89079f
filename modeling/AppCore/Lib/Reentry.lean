/-
  AppCore.Lib.Reentry

  Threads that call a library whose calls call back.  While a callback runs, its thread
  may call the library again, so each thread has a stack of calls; a thread may also be
  one of the library's own, whose base loop runs callbacks.  A counter for each thread is
  meant to say how many callbacks it is in.
-/

import Mathlib.Data.List.Nodup
import Mathlib.Logic.Function.Basic
import Mathlib.Logic.Relation

namespace Reentry

/-- A call: not made yet, in the library's code, in a callback, or over. -/
inductive Status where
  | fresh
  | active
  | inCallback
  | over
deriving DecidableEq, Repr

/-- The calls, the stack of each thread with the innermost call first, whether the base
    loop of a thread is in a callback, and the counters. -/
structure Stacks (T K : Type*) where
  status : K → Status
  stack : T → List K
  base : T → Bool
  depth : T → Nat

variable {T K : Type*}

/-- The thread is executing a callback. -/
def Stacks.InCallback (v : Stacks T K) (t : T) : Prop :=
  (∃ k ∈ v.stack t, v.status k = .inCallback) ∨ v.base t = true

/-- With the calls `l` on its stack the thread is in code outside the library.  `free` are
    the threads whose base is not the library's. -/
def Stacks.OutsideOn (free : T → Prop) (v : Stacks T K) (t : T) : List K → Prop
  | [] => free t ∨ v.base t = true
  | k :: _ => v.status k = .inCallback

/-- The thread is in code outside the library. -/
def Stacks.Outside (free : T → Prop) (v : Stacks T K) (t : T) : Prop :=
  v.OutsideOn free t (v.stack t)

/-- The call `k` is the only thing its thread is in. -/
def Stacks.Alone (v : Stacks T K) (k : K) : Prop :=
  ∀ t, k ∈ v.stack t → v.stack t = [k] ∧ v.base t = false

/-- Every call that is neither new nor over is on the stack of a thread. -/
def Stacks.Placed (v : Stacks T K) : Prop :=
  ∀ k, v.status k = .active ∨ v.status k = .inCallback → ∃ t, k ∈ v.stack t

/-- Code outside the library has called it, or a callback has returned to it, or the step is
    the library's own. -/
inductive Act (T : Type*) where
  | library
  | enters (t : T)
  | resumes (t : T)
deriving DecidableEq, Repr

/-- What one step can do. -/
inductive Turn [DecidableEq T] [DecidableEq K] (free : T → Prop) (v : Stacks T K) :
    Act T → Stacks T K → Prop
  | same : Turn free v .library v
  /-- A call that returns at once. -/
  | answer {k} : v.status k = .fresh →
      Turn free v .library { v with status := Function.update v.status k .over }
  | enter {t k} : v.Outside free t → v.status k = .fresh →
      Turn free v (.enters t) { v with
        status := Function.update v.status k .active
        stack := Function.update v.stack t (k :: v.stack t) }
  | callback {t k rest} : v.stack t = k :: rest → v.status k = .active →
      Turn free v .library { v with
        status := Function.update v.status k .inCallback
        depth := Function.update v.depth t (v.depth t + 1) }
  | resume {t k rest} : v.stack t = k :: rest → v.status k = .inCallback →
      Turn free v (.resumes t) { v with
        status := Function.update v.status k .active
        depth := Function.update v.depth t (v.depth t - 1) }
  | leave {t k rest} : v.stack t = k :: rest → v.status k = .active →
      Turn free v .library { v with
        status := Function.update v.status k .over
        stack := Function.update v.stack t rest }
  | baseCallback {t} : v.stack t = [] → v.base t = false →
      Turn free v .library { v with
        base := Function.update v.base t true
        depth := Function.update v.depth t (v.depth t + 1) }
  | baseResume {t} : v.stack t = [] → v.base t = true →
      Turn free v (.resumes t) { v with
        base := Function.update v.base t false
        depth := Function.update v.depth t (v.depth t - 1) }
  /-- A thread of the library is created. -/
  | renew {t} : ¬ free t → v.base t = false →
      Turn free v .library { v with depth := Function.update v.depth t 0 }

/-- The thread `t` goes on under the name `t'`. -/
def Stacks.rename [DecidableEq T] (v : Stacks T K) (t t' : T) : Stacks T K :=
  { v with
    stack := Function.update (Function.update v.stack t' (v.stack t)) t []
    base := Function.update (Function.update v.base t' (v.base t)) t false
    depth := Function.update (Function.update v.depth t' (v.depth t)) t 0 }

/-- Without its calls above the `n` outermost ones the thread is outside the library. -/
def Stacks.Held (free : T → Prop) (v : Stacks T K) (t : T) (n : Nat) : Prop :=
  ∃ upper lower, v.stack t = upper ++ lower ∧ lower.length = n ∧ v.OutsideOn free t lower

/-- The stacks are stacks of callbacks, and the counters count them. -/
structure Nested (free : T → Prop) (v : Stacks T K) : Prop where
  nodup : ∀ t, (v.stack t).Nodup
  disjoint : ∀ t t' k, k ∈ v.stack t → k ∈ v.stack t' → t = t'
  live : ∀ t, ∀ k ∈ v.stack t, v.status k = .active ∨ v.status k = .inCallback
  inner : ∀ t k rest, v.stack t = k :: rest → ∀ k' ∈ rest, v.status k' = .inCallback
  depth_eq : ∀ t, v.depth t =
    (v.stack t).countP (fun k => v.status k = .inCallback) + (v.base t).toNat
  base_of_stack : ∀ t, ¬ free t → v.stack t ≠ [] → v.base t = true

section Rules

variable {free : T → Prop} {v v' : Stacks T K} {act : Act T} {t : T} {k : K}

theorem Nested.depth_pos_iff (h : Nested free v) (t : T) : 0 < v.depth t ↔ v.InCallback t := by
  rw [h.depth_eq, Stacks.InCallback]
  constructor
  · intro hpos
    cases hbase : v.base t with
    | true => exact Or.inr rfl
    | false =>
        rw [hbase, Bool.toNat_false, Nat.add_zero, List.countP_pos_iff] at hpos
        obtain ⟨k, hk, hst⟩ := hpos
        exact Or.inl ⟨k, hk, by simpa using hst⟩
  · rintro (⟨k, hk, hst⟩ | hbase)
    · have hpos : 0 < (v.stack t).countP fun k => v.status k = .inCallback :=
        List.countP_pos_iff.mpr ⟨k, hk, by simpa using hst⟩
      omega
    · rw [hbase, Bool.toNat_true]
      omega

/-- A thread outside the library that is in no callback is in no call. -/
theorem Stacks.Outside.stack_nil (h : v.Outside free t) (hno : ¬ v.InCallback t) :
    v.stack t = [] := by
  cases hstack : v.stack t with
  | nil => rfl
  | cons k rest =>
      rw [Stacks.Outside, hstack] at h
      have htop : v.status k = .inCallback := h
      exact absurd (Or.inl ⟨k, by rw [hstack]; exact List.mem_cons_self .., htop⟩) hno

theorem Nested.not_mem_of_fresh (h : Nested free v) (hk : v.status k = .fresh) (t : T) :
    k ∉ v.stack t := by
  intro hmem
  rcases h.live t k hmem with hst | hst <;> rw [hk] at hst <;> cases hst

theorem Nested.ne_of_fresh {k' : K} (h : Nested free v) (hk : v.status k = .fresh)
    (hk' : k' ∈ v.stack t) : k' ≠ k := by
  rintro rfl
  exact h.not_mem_of_fresh hk t hk'

/-- A thread of the library that is in no callback is in no call. -/
theorem Nested.stack_nil_of_base (h : Nested free v) (hfree : ¬ free t) (hbase : v.base t = false) :
    v.stack t = [] := by
  by_contra hne
  rw [h.base_of_stack t hfree hne] at hbase
  cases hbase

variable [DecidableEq T] [DecidableEq K]

omit [DecidableEq T] in
/-- A status that changes off a stack does not change what is counted on it. -/
theorem countP_update_of_not_mem {l : List K} (hk : k ∉ l) (status : K → Status) (st : Status) :
    l.countP (fun k' => Function.update status k st k' = .inCallback) =
      l.countP fun k' => status k' = .inCallback := by
  apply List.countP_congr
  intro k' hk'
  have hne : k' ≠ k := by
    rintro rfl
    exact hk hk'
  rw [Function.update_of_ne hne]

omit [DecidableEq T] [DecidableEq K] in
/-- A call on one stack is on no other. -/
theorem Nested.not_mem_of_ne (h : Nested free v) {t' : T} (hk : k ∈ v.stack t) (hne : t' ≠ t) :
    k ∉ v.stack t' := fun hk' => hne (h.disjoint t' t k hk' hk)

omit [DecidableEq T] in
/-- The status of a call on no stack is free to change. -/
theorem Nested.update_off_stack (h : Nested free v) (hk : ∀ t, k ∉ v.stack t) (st : Status) :
    Nested free { v with status := Function.update v.status k st } := by
  have hsame : ∀ t, ∀ k' ∈ v.stack t, Function.update v.status k st k' = v.status k' := by
    intro t k' hk'
    apply Function.update_of_ne
    rintro rfl
    exact hk t hk'
  refine ⟨h.nodup, h.disjoint, fun t k' hk' => ?_, fun t k' rest hstack k'' hk'' => ?_,
    fun t => ?_, h.base_of_stack⟩
  · show Function.update v.status k st k' = .active ∨ Function.update v.status k st k' = .inCallback
    rw [hsame t k' hk']
    exact h.live t k' hk'
  · show Function.update v.status k st k'' = _
    rw [hsame t k'' (by rw [hstack]; exact List.mem_cons_of_mem _ hk'')]
    exact h.inner t k' rest hstack k'' hk''
  · show _ = (v.stack t).countP (fun k' => Function.update v.status k st k' = .inCallback) + _
    rw [countP_update_of_not_mem (hk t)]
    exact h.depth_eq t

theorem Nested.enter (h : Nested free v) (hout : v.Outside free t) (hk : v.status k = .fresh) :
    Nested free { v with
      status := Function.update v.status k .active
      stack := Function.update v.stack t (k :: v.stack t) } := by
  have hnew := h.not_mem_of_fresh hk
  have hsame : ∀ k', v.status k' ≠ .fresh →
      Function.update v.status k .active k' = v.status k' := by
    intro k' hk'
    apply Function.update_of_ne
    rintro rfl
    exact hk' hk
  have hold : ∀ t', ∀ k' ∈ v.stack t', Function.update v.status k .active k' = v.status k' := by
    intro t' k' hk'
    apply hsame
    rcases h.live t' k' hk' with hst | hst <;> rw [hst] <;> decide
  -- whoever is outside the library has nothing but callbacks on its stack
  have hall : ∀ k' ∈ v.stack t, v.status k' = .inCallback := by
    cases hstack : v.stack t with
    | nil => exact fun k' hk' => (List.not_mem_nil hk').elim
    | cons top rest =>
        rw [Stacks.Outside, hstack] at hout
        intro k' hk'
        rcases List.mem_cons.mp hk' with rfl | hk'
        · exact hout
        · exact h.inner t top rest hstack k' hk'
  have hstack_of_ne : ∀ t', t' ≠ t →
      Function.update v.stack t (k :: v.stack t) t' = v.stack t' :=
    fun t' hne => Function.update_of_ne hne ..
  have hmem : ∀ t' k', k' ∈ Function.update v.stack t (k :: v.stack t) t' →
      (k' = k ∧ t' = t) ∨ k' ∈ v.stack t' := by
    intro t' k' hk'
    by_cases hne : t' = t
    · subst hne
      rw [Function.update_self] at hk'
      rcases List.mem_cons.mp hk' with rfl | hk'
      · exact Or.inl ⟨rfl, rfl⟩
      · exact Or.inr hk'
    · rw [hstack_of_ne t' hne] at hk'
      exact Or.inr hk'
  constructor
  · intro t'
    by_cases hne : t' = t
    · subst hne
      show (Function.update v.stack t' _ t').Nodup
      rw [Function.update_self]
      exact List.nodup_cons.mpr ⟨hnew t', h.nodup t'⟩
    · show (Function.update v.stack t _ t').Nodup
      rw [hstack_of_ne t' hne]
      exact h.nodup t'
  · intro t₁ t₂ k' h₁ h₂
    rcases hmem t₁ k' h₁ with ⟨rfl, rfl⟩ | hold₁
    · rcases hmem t₂ k' h₂ with ⟨-, rfl⟩ | hold₂
      · rfl
      · exact absurd hold₂ (hnew t₂)
    · rcases hmem t₂ k' h₂ with ⟨rfl, -⟩ | hold₂
      · exact absurd hold₁ (hnew t₁)
      · exact h.disjoint t₁ t₂ k' hold₁ hold₂
  · intro t' k' hk'
    show Function.update v.status k .active k' = .active ∨
      Function.update v.status k .active k' = .inCallback
    rcases hmem t' k' hk' with ⟨rfl, -⟩ | hk'
    · rw [Function.update_self]
      exact Or.inl rfl
    · rw [hold t' k' hk']
      exact h.live t' k' hk'
  · intro t' top rest hstack k' hk'
    show Function.update v.status k .active k' = _
    by_cases hne : t' = t
    · subst hne
      obtain ⟨-, rfl⟩ : k = top ∧ v.stack t' = rest := by
        have heq : Function.update v.stack t' (k :: v.stack t') t' = top :: rest := hstack
        rw [Function.update_self] at heq
        exact List.cons.inj heq
      rw [hold t' k' hk']
      exact hall k' hk'
    · have heq : v.stack t' = top :: rest := (hstack_of_ne t' hne).symm.trans hstack
      rw [hold t' k' (by rw [heq]; exact List.mem_cons_of_mem _ hk')]
      exact h.inner t' top rest heq k' hk'
  · intro t'
    show v.depth t' = (Function.update v.stack t (k :: v.stack t) t').countP
      (fun k' => Function.update v.status k .active k' = .inCallback) + _
    by_cases hne : t' = t
    · subst hne
      rw [Function.update_self, List.countP_cons, countP_update_of_not_mem (hnew t'),
        Function.update_self, if_neg (by decide), Nat.add_zero]
      exact h.depth_eq t'
    · rw [hstack_of_ne t' hne, countP_update_of_not_mem (hnew t')]
      exact h.depth_eq t'
  · intro t' hfree hne'
    by_cases hne : t' = t
    · subst hne
      cases hstack : v.stack t' with
      | nil =>
          rw [Stacks.Outside, hstack] at hout
          exact hout.resolve_left hfree
      | cons top rest =>
          apply h.base_of_stack t' hfree
          rw [hstack]
          exact List.cons_ne_nil _ _
    · apply h.base_of_stack t' hfree
      rw [← hstack_of_ne t' hne]
      exact hne'

/-- The innermost call of a thread goes into a callback or comes out of one. -/
theorem Nested.setTop {rest : List K} {st : Status} {d : Nat} (h : Nested free v)
    (hstack : v.stack t = k :: rest) (hst : st = .active ∨ st = .inCallback)
    (hd : d + (if v.status k = .inCallback then 1 else 0) =
      v.depth t + if st = .inCallback then 1 else 0) :
    Nested free { v with
      status := Function.update v.status k st
      depth := Function.update v.depth t d } := by
  have hk : k ∈ v.stack t := by rw [hstack]; exact List.mem_cons_self ..
  have hrest : k ∉ rest := by
    have hnd := h.nodup t
    rw [hstack] at hnd
    exact (List.nodup_cons.mp hnd).1
  constructor
  · exact h.nodup
  · exact h.disjoint
  · intro t' k' hk'
    show Function.update v.status k st k' = .active ∨ Function.update v.status k st k' = .inCallback
    by_cases hne : k' = k
    · rw [hne, Function.update_self]
      exact hst
    · rw [Function.update_of_ne hne]
      exact h.live t' k' hk'
  · intro t' top rest' hstack' k' hk'
    show Function.update v.status k st k' = _
    have hne : k' ≠ k := by
      rintro rfl
      -- the call is on top of its own stack, so it is below nobody's
      have hmem : k' ∈ v.stack t' := by
        rw [show v.stack t' = top :: rest' from hstack']
        exact List.mem_cons_of_mem _ hk'
      obtain rfl := h.disjoint t' t k' hmem hk
      rw [show v.stack t' = top :: rest' from hstack'] at hstack
      obtain ⟨-, rfl⟩ := List.cons.inj hstack
      exact hrest hk'
    rw [Function.update_of_ne hne]
    exact h.inner t' top rest' hstack' k' hk'
  · intro t'
    show Function.update v.depth t d t' = (v.stack t').countP
      (fun k' => Function.update v.status k st k' = .inCallback) + _
    by_cases hne : t' = t
    · subst hne
      have hold := h.depth_eq t'
      rw [hstack, List.countP_cons] at hold
      rw [Function.update_self, hstack, List.countP_cons, countP_update_of_not_mem hrest,
        Function.update_self]
      simp only [decide_eq_true_eq] at hold ⊢
      omega
    · rw [Function.update_of_ne hne, countP_update_of_not_mem (h.not_mem_of_ne hk hne)]
      exact h.depth_eq t'
  · exact h.base_of_stack

theorem Nested.leave {rest : List K} (h : Nested free v) (hstack : v.stack t = k :: rest)
    (hk : v.status k = .active) :
    Nested free { v with
      status := Function.update v.status k .over
      stack := Function.update v.stack t rest } := by
  have hnd := h.nodup t
  rw [hstack] at hnd
  have hsub : ∀ t' k', k' ∈ Function.update v.stack t rest t' → k' ∈ v.stack t' := by
    intro t' k' hk'
    by_cases hne : t' = t
    · subst hne
      rw [Function.update_self] at hk'
      rw [hstack]
      exact List.mem_cons_of_mem _ hk'
    · rwa [Function.update_of_ne hne] at hk'
  have hoff : ∀ t', k ∉ Function.update v.stack t rest t' := by
    intro t' hmem
    by_cases hne : t' = t
    · subst hne
      rw [Function.update_self] at hmem
      exact (List.nodup_cons.mp hnd).1 hmem
    · rw [Function.update_of_ne hne] at hmem
      exact h.not_mem_of_ne (by rw [hstack]; exact List.mem_cons_self ..) hne hmem
  -- popping the stack first, the call is on no stack when its status changes
  have hpop : Nested free { v with stack := Function.update v.stack t rest } := by
    constructor
    · intro t'
      by_cases hne : t' = t
      · subst hne
        show (Function.update v.stack t' rest t').Nodup
        rw [Function.update_self]
        exact (List.nodup_cons.mp hnd).2
      · show (Function.update v.stack t rest t').Nodup
        rw [Function.update_of_ne hne]
        exact h.nodup t'
    · exact fun t₁ t₂ k' h₁ h₂ => h.disjoint t₁ t₂ k' (hsub t₁ k' h₁) (hsub t₂ k' h₂)
    · exact fun t' k' hk' => h.live t' k' (hsub t' k' hk')
    · intro t' top rest' hstack' k' hk'
      by_cases hne : t' = t
      · subst hne
        have heq : rest = top :: rest' :=
          (Function.update_self (f := v.stack) ..).symm.trans hstack'
        refine h.inner t' k rest hstack k' ?_
        rw [heq]
        exact List.mem_cons_of_mem _ hk'
      · exact h.inner t' top rest' ((Function.update_of_ne hne ..).symm.trans hstack') k' hk'
    · intro t'
      show v.depth t' = (Function.update v.stack t rest t').countP _ + _
      by_cases hne : t' = t
      · subst hne
        have hold := h.depth_eq t'
        rw [hstack, List.countP_cons, hk, if_neg (by decide), Nat.add_zero] at hold
        rw [Function.update_self]
        exact hold
      · rw [Function.update_of_ne hne]
        exact h.depth_eq t'
    · intro t' hfree hne'
      apply h.base_of_stack t' hfree
      intro hnil
      apply hne'
      show Function.update v.stack t rest t' = []
      by_cases hne : t' = t
      · subst hne
        rw [hstack] at hnil
        cases hnil
      · rw [Function.update_of_ne hne]
        exact hnil
  exact hpop.update_off_stack hoff .over

omit [DecidableEq K] in
/-- The base loop of a thread with an empty stack goes into a callback or comes out of one. -/
theorem Nested.setBase {b : Bool} {d : Nat} (h : Nested free v) (hstack : v.stack t = [])
    (hd : d + (v.base t).toNat = v.depth t + b.toNat) :
    Nested free { v with
      base := Function.update v.base t b
      depth := Function.update v.depth t d } := by
  refine ⟨h.nodup, h.disjoint, h.live, h.inner, fun t' => ?_, fun t' hfree hne' => ?_⟩
  · show Function.update v.depth t d t' =
      (v.stack t').countP (fun k => v.status k = .inCallback) +
        (Function.update v.base t b t').toNat
    by_cases hne : t' = t
    · subst hne
      have hold := h.depth_eq t'
      rw [Function.update_self, Function.update_self]
      omega
    · rw [Function.update_of_ne hne, Function.update_of_ne hne]
      exact h.depth_eq t'
  · show Function.update v.base t b t' = true
    by_cases hne : t' = t
    · subst hne
      exact absurd hstack hne'
    · rw [Function.update_of_ne hne]
      exact h.base_of_stack t' hfree hne'

omit [DecidableEq K] in
theorem Nested.rename {t' : T} (h : Nested free v) (hne : t ≠ t') (hfree : ¬ free t)
    (hfree' : ¬ free t') (hbase : v.base t' = false) : Nested free (v.rename t t') := by
  have hnil : v.stack t' = [] := h.stack_nil_of_base hfree' hbase
  -- the stack of a thread after the step is that of some thread before it, or empty
  have hcases : ∀ u,
      (u = t ∧ Function.update (Function.update v.stack t' (v.stack t)) t [] u = []) ∨
      (u = t' ∧ Function.update (Function.update v.stack t' (v.stack t)) t [] u = v.stack t) ∨
      (u ≠ t ∧ u ≠ t' ∧
        Function.update (Function.update v.stack t' (v.stack t)) t [] u = v.stack u) := by
    intro u
    by_cases hu : u = t
    · subst hu
      exact Or.inl ⟨rfl, Function.update_self ..⟩
    · by_cases hu' : u = t'
      · subst hu'
        exact Or.inr (Or.inl ⟨rfl, by rw [Function.update_of_ne hu, Function.update_self]⟩)
      · exact Or.inr (Or.inr ⟨hu, hu', by
          rw [Function.update_of_ne hu, Function.update_of_ne hu']⟩)
  constructor
  · intro u
    show (Function.update (Function.update v.stack t' (v.stack t)) t [] u).Nodup
    rcases hcases u with ⟨-, heq⟩ | ⟨-, heq⟩ | ⟨-, -, heq⟩
    · rw [heq]; exact List.nodup_nil
    · rw [heq]; exact h.nodup t
    · rw [heq]; exact h.nodup u
  · intro u₁ u₂ k hm₁ hm₂
    have h₁ : k ∈ Function.update (Function.update v.stack t' (v.stack t)) t [] u₁ := hm₁
    have h₂ : k ∈ Function.update (Function.update v.stack t' (v.stack t)) t [] u₂ := hm₂
    rcases hcases u₁ with ⟨-, heq₁⟩ | ⟨rfl, heq₁⟩ | ⟨hu₁, -, heq₁⟩
    · rw [heq₁] at h₁
      exact (List.not_mem_nil h₁).elim
    · rw [heq₁] at h₁
      rcases hcases u₂ with ⟨-, heq₂⟩ | ⟨rfl, -⟩ | ⟨hu₂, -, heq₂⟩
      · rw [heq₂] at h₂
        exact (List.not_mem_nil h₂).elim
      · rfl
      · rw [heq₂] at h₂
        exact absurd (h.disjoint t u₂ k h₁ h₂).symm hu₂
    · rw [heq₁] at h₁
      rcases hcases u₂ with ⟨-, heq₂⟩ | ⟨rfl, heq₂⟩ | ⟨-, -, heq₂⟩
      · rw [heq₂] at h₂
        exact (List.not_mem_nil h₂).elim
      · rw [heq₂] at h₂
        exact absurd (h.disjoint u₁ t k h₁ h₂) hu₁
      · rw [heq₂] at h₂
        exact h.disjoint u₁ u₂ k h₁ h₂
  · intro u k hk
    have hk : k ∈ Function.update (Function.update v.stack t' (v.stack t)) t [] u := hk
    rcases hcases u with ⟨-, heq⟩ | ⟨-, heq⟩ | ⟨-, -, heq⟩
    · rw [heq] at hk
      exact (List.not_mem_nil hk).elim
    · rw [heq] at hk; exact h.live t k hk
    · rw [heq] at hk; exact h.live u k hk
  · intro u top rest hstack
    have hstack : Function.update (Function.update v.stack t' (v.stack t)) t [] u = top :: rest :=
      hstack
    rcases hcases u with ⟨-, heq⟩ | ⟨-, heq⟩ | ⟨-, -, heq⟩
    · rw [heq] at hstack; cases hstack
    · rw [heq] at hstack; exact h.inner t top rest hstack
    · rw [heq] at hstack; exact h.inner u top rest hstack
  · intro u
    show Function.update (Function.update v.depth t' (v.depth t)) t 0 u =
      (Function.update (Function.update v.stack t' (v.stack t)) t [] u).countP _ +
        (Function.update (Function.update v.base t' (v.base t)) t false u).toNat
    rcases hcases u with ⟨rfl, heq⟩ | ⟨rfl, heq⟩ | ⟨hu, hu', heq⟩
    · rw [heq, Function.update_self, Function.update_self]
      rfl
    · rw [heq, Function.update_of_ne (Ne.symm hne), Function.update_of_ne (Ne.symm hne),
        Function.update_self, Function.update_self]
      exact h.depth_eq t
    · rw [heq, Function.update_of_ne hu, Function.update_of_ne hu, Function.update_of_ne hu',
        Function.update_of_ne hu']
      exact h.depth_eq u
  · intro u hu hne'
    have hne' : Function.update (Function.update v.stack t' (v.stack t)) t [] u ≠ [] := hne'
    show Function.update (Function.update v.base t' (v.base t)) t false u = true
    rcases hcases u with ⟨-, heq⟩ | ⟨rfl, heq⟩ | ⟨hu₁, hu₂, heq⟩
    · exact absurd heq hne'
    · rw [heq] at hne'
      rw [Function.update_of_ne (Ne.symm hne), Function.update_self]
      exact h.base_of_stack t hfree hne'
    · rw [heq] at hne'
      rw [Function.update_of_ne hu₁, Function.update_of_ne hu₂]
      exact h.base_of_stack u hu hne'

/-- Every step keeps the nesting. -/
theorem Turn.nested (hturn : Turn free v act v') (h : Nested free v) : Nested free v' := by
  cases hturn with
  | same => exact h
  | answer hk => exact h.update_off_stack (h.not_mem_of_fresh hk) .over
  | enter hout hk => exact h.enter hout hk
  | callback hstack hk =>
      exact h.setTop hstack (Or.inr rfl) (by rw [hk]; rfl)
  | @resume t k rest hstack hk =>
      have hpos := (h.depth_pos_iff t).mpr (Or.inl ⟨k, by rw [hstack]; exact List.mem_cons_self ..,
        hk⟩)
      refine h.setTop hstack (Or.inl rfl) ?_
      rw [hk, if_pos rfl, if_neg (by decide)]
      omega
  | leave hstack hk => exact h.leave hstack hk
  | baseCallback hstack hbase => exact h.setBase hstack (by rw [hbase]; rfl)
  | @baseResume t hstack hbase =>
      have hpos := (h.depth_pos_iff t).mpr (Or.inr hbase)
      refine h.setBase hstack ?_
      rw [hbase, Bool.toNat_true, Bool.toNat_false]
      omega
  | @renew t hfree hbase =>
      have hnil := h.stack_nil_of_base hfree hbase
      have hzero : v.depth t = 0 := by
        rw [h.depth_eq, hnil, hbase]
        rfl
      rw [← hzero, Function.update_eq_self]
      exact h

/-- A call made outside every callback is alone on its thread. -/
theorem Nested.alone_of_enter (h : Nested free v) (hout : v.Outside free t)
    (hk : v.status k = .fresh) (hno : ¬ v.InCallback t) :
    Stacks.Alone { v with
      status := Function.update v.status k .active
      stack := Function.update v.stack t (k :: v.stack t) } k := by
  intro u hu
  have hu : k ∈ Function.update v.stack t (k :: v.stack t) u := hu
  show Function.update v.stack t (k :: v.stack t) u = [k] ∧ v.base u = false
  by_cases hne : u = t
  · subst hne
    rw [Function.update_self, hout.stack_nil hno]
    exact ⟨rfl, eq_false_of_ne_true fun hbase => hno (Or.inr hbase)⟩
  · rw [Function.update_of_ne hne] at hu
    exact absurd hu (h.not_mem_of_fresh hk u)

/-- And it stays alone while it is in the library's code. -/
theorem Turn.alone (hturn : Turn free v act v') (halone : v.Alone k)
    (hk : v.status k = .active) : v'.Alone k := by
  cases hturn with
  | same => exact halone
  | answer _ => exact halone
  | @enter t k₀ hout hk₀ =>
      intro u hu
      have hu : k ∈ Function.update v.stack t (k₀ :: v.stack t) u := hu
      show Function.update v.stack t (k₀ :: v.stack t) u = [k] ∧ v.base u = false
      by_cases hne : u = t
      · -- the thread of `k` is not outside the library
        subst hne
        rw [Function.update_self] at hu
        rcases List.mem_cons.mp hu with rfl | hu
        · rw [hk] at hk₀
          cases hk₀
        · rw [Stacks.Outside, (halone u hu).1] at hout
          have htop : v.status k = .inCallback := hout
          rw [hk] at htop
          cases htop
      · rw [Function.update_of_ne hne] at hu ⊢
        exact halone u hu
  | callback _ _ => exact halone
  | resume _ _ => exact halone
  | @leave t k₀ rest hstack _ =>
      intro u hu
      have hu : k ∈ Function.update v.stack t rest u := hu
      show Function.update v.stack t rest u = [k] ∧ v.base u = false
      by_cases hne : u = t
      · subst hne
        rw [Function.update_self] at hu
        have hone := (halone u (by rw [hstack]; exact List.mem_cons_of_mem _ hu)).1
        rw [hstack] at hone
        obtain ⟨-, rfl⟩ := List.cons.inj hone
        exact (List.not_mem_nil hu).elim
      · rw [Function.update_of_ne hne] at hu ⊢
        exact halone u hu
  | @baseCallback t hstack _ =>
      intro u hu
      have hu : k ∈ v.stack u := hu
      have hne : u ≠ t := by
        rintro rfl
        rw [hstack] at hu
        exact List.not_mem_nil hu
      show v.stack u = [k] ∧ Function.update v.base t true u = false
      rw [Function.update_of_ne hne]
      exact halone u hu
  | @baseResume t hstack _ =>
      intro u hu
      have hu : k ∈ v.stack u := hu
      have hne : u ≠ t := by
        rintro rfl
        rw [hstack] at hu
        exact List.not_mem_nil hu
      show v.stack u = [k] ∧ Function.update v.base t false u = false
      rw [Function.update_of_ne hne]
      exact halone u hu
  | renew _ _ => exact halone

/-- A call that a step has brought into the library's code from a thread in no callback. -/
theorem Turn.alone_of_enter (hturn : Turn free v (.enters t) v') (h : Nested free v)
    (hfresh : v.status k = .fresh) (hactive : v'.status k = .active) (hno : ¬ v.InCallback t) :
    v'.Alone k := by
  cases hturn with
  | @enter t k₀ hout hk₀ =>
      have hkk : k = k₀ := by
        by_contra hne
        have hsame : Function.update v.status k₀ .active k = .active := hactive
        rw [Function.update_of_ne hne, hfresh] at hsame
        cases hsame
      subst hkk
      exact h.alone_of_enter hout hk₀ hno

/-- A call stays on its stack until it is over. -/
theorem Turn.mem_stack (hturn : Turn free v act v') (hk : k ∈ v.stack t)
    (hover : v'.status k ≠ .over) : k ∈ v'.stack t := by
  cases hturn with
  | same => exact hk
  | answer _ => exact hk
  | @enter t₀ k₀ _ _ =>
      show k ∈ Function.update v.stack t₀ (k₀ :: v.stack t₀) t
      by_cases hne : t = t₀
      · subst hne
        rw [Function.update_self]
        exact List.mem_cons_of_mem _ hk
      · rw [Function.update_of_ne hne]
        exact hk
  | callback _ _ => exact hk
  | resume _ _ => exact hk
  | @leave t₀ k₀ rest hstack _ =>
      show k ∈ Function.update v.stack t₀ rest t
      by_cases hne : t = t₀
      · subst hne
        rw [Function.update_self]
        rw [hstack] at hk
        rcases List.mem_cons.mp hk with rfl | hk
        · exact absurd (Function.update_self ..) hover
        · exact hk
      · rw [Function.update_of_ne hne]
        exact hk
  | baseCallback _ _ => exact hk
  | baseResume _ _ => exact hk
  | renew _ _ => exact hk

omit [DecidableEq K] in
/-- A thread takes the calls on its stack along under its new name. -/
theorem Stacks.Placed.rename {t' : T} (h : v.Placed) (hnil : v.stack t' = []) :
    (v.rename t t').Placed := by
  intro k hk
  obtain ⟨u, hu⟩ := h k hk
  show ∃ u, k ∈ Function.update (Function.update v.stack t' (v.stack t)) t [] u
  have hothers : u ≠ t' := by
    rintro rfl
    rw [hnil] at hu
    exact List.not_mem_nil hu
  by_cases hut : u = t
  · subst hut
    refine ⟨t', ?_⟩
    rw [Function.update_of_ne (Ne.symm hothers), Function.update_self]
    exact hu
  · refine ⟨u, ?_⟩
    rw [Function.update_of_ne hut, Function.update_of_ne hothers]
    exact hu

/-- Only a call that a thread enters becomes live. -/
theorem Turn.placed (hturn : Turn free v act v') (h : v.Placed) : v'.Placed := by
  intro k hk
  have hover : v'.status k ≠ .over := by
    intro hover
    rw [hover] at hk
    rcases hk with hk | hk <;> cases hk
  by_cases hlive : v.status k = .active ∨ v.status k = .inCallback
  · obtain ⟨t, ht⟩ := h k hlive
    exact ⟨t, hturn.mem_stack ht hover⟩
  -- the step has changed the status of `k`
  have hother : ∀ k₀ st, v'.status = Function.update v.status k₀ st → k = k₀ := by
    intro k₀ st heq
    by_contra hne
    rw [heq, Function.update_of_ne hne] at hk
    exact hlive hk
  cases hturn with
  | same => exact absurd hk hlive
  | @answer k₀ _ =>
      obtain rfl := hother k₀ .over rfl
      exact absurd (Function.update_self ..) hover
  | @enter t k₀ _ _ =>
      obtain rfl := hother k₀ .active rfl
      refine ⟨t, ?_⟩
      show k ∈ Function.update v.stack t (k :: v.stack t) t
      rw [Function.update_self]
      exact List.mem_cons_self
  | @callback t k₀ rest hstack _ =>
      obtain rfl := hother k₀ .inCallback rfl
      exact ⟨t, hstack ▸ List.mem_cons_self⟩
  | @resume t k₀ rest hstack _ =>
      obtain rfl := hother k₀ .active rfl
      exact ⟨t, hstack ▸ List.mem_cons_self⟩
  | @leave t k₀ rest _ _ =>
      obtain rfl := hother k₀ .over rfl
      exact absurd (Function.update_self ..) hover
  | baseCallback _ _ => exact absurd hk hlive
  | baseResume _ _ => exact absurd hk hlive
  | renew _ _ => exact absurd hk hlive

omit [DecidableEq K] in
theorem Stacks.Alone.rename {t' : T} (halone : v.Alone k) : (v.rename t t').Alone k := by
  intro u hu
  have hu : k ∈ Function.update (Function.update v.stack t' (v.stack t)) t [] u := hu
  show Function.update (Function.update v.stack t' (v.stack t)) t [] u = [k] ∧
    Function.update (Function.update v.base t' (v.base t)) t false u = false
  by_cases hu₁ : u = t
  · subst hu₁
    rw [Function.update_self] at hu
    exact (List.not_mem_nil hu).elim
  · rw [Function.update_of_ne hu₁] at hu
    rw [Function.update_of_ne hu₁, Function.update_of_ne hu₁]
    by_cases hu₂ : u = t'
    · subst hu₂
      rw [Function.update_self] at hu
      rw [Function.update_self, Function.update_self]
      exact halone t hu
    · rw [Function.update_of_ne hu₂] at hu
      rw [Function.update_of_ne hu₂, Function.update_of_ne hu₂]
      exact halone u hu

/-! ## Code outside the library -/

omit [DecidableEq T] [DecidableEq K] in
theorem Stacks.OutsideOn.mono {l : List K} (h : v.OutsideOn free t l)
    (hbase : l = [] → v.base t = true → v'.base t = true)
    (hst : ∀ k ∈ l, v.status k = .inCallback → v'.status k = .inCallback) :
    v'.OutsideOn free t l := by
  cases l with
  | nil => exact Or.imp id (hbase rfl) h
  | cons k rest => exact hst k List.mem_cons_self h

omit [DecidableEq T] [DecidableEq K] in
theorem Stacks.Outside.held (h : v.Outside free t) : v.Held free t (v.stack t).length :=
  ⟨[], v.stack t, rfl, rfl, h⟩

omit [DecidableEq T] [DecidableEq K] in
theorem Stacks.Held.outside (h : v.Held free t (v.stack t).length) : v.Outside free t := by
  obtain ⟨upper, lower, hstack, hlen, hlower⟩ := h
  rw [hstack, List.length_append] at hlen
  have hnil : upper = [] := List.length_eq_zero_iff.mp (by omega)
  rw [hnil, List.nil_append] at hstack
  rw [Stacks.Outside, hstack]
  exact hlower

omit [DecidableEq T] [DecidableEq K] in
/-- What is held on a thread of the library outside every call is a callback of its base. -/
theorem Stacks.Held.base_eq_true {n : Nat} (h : v.Held free t n) (hnil : v.stack t = [])
    (hfree : ¬ free t) : v.base t = true := by
  obtain ⟨upper, lower, hstack, -, hlower⟩ := h
  rw [hnil] at hstack
  obtain ⟨-, rfl⟩ := List.append_eq_nil_iff.mp hstack.symm
  exact Or.resolve_left hlower hfree

/-- The code that holds the outermost calls of a thread goes on holding them until it
    resumes. -/
theorem Turn.held {n : Nat} (hturn : Turn free v act v') (h : Nested free v)
    (hheld : v.Held free t n) (hkeep : act = .resumes t → n < (v.stack t).length) :
    v'.Held free t n := by
  obtain ⟨upper, lower, hstack, hlen, hlower⟩ := hheld
  have hmem : ∀ k' ∈ lower, k' ∈ v.stack t := by
    intro k' hk'
    rw [hstack]
    exact List.mem_append_right _ hk'
  cases hturn with
  | same => exact ⟨upper, lower, hstack, hlen, hlower⟩
  | @answer k hk =>
      refine ⟨upper, lower, hstack, hlen, hlower.mono (fun _ hb => hb) fun k' hk' hst => ?_⟩
      show Function.update v.status k .over k' = .inCallback
      rw [Function.update_of_ne (h.ne_of_fresh hk (hmem k' hk'))]
      exact hst
  | @enter t₀ k _ hk =>
      have hold : ∀ k' ∈ lower, v.status k' = .inCallback →
          Function.update v.status k .active k' = .inCallback := by
        intro k' hk' hst
        rw [Function.update_of_ne (h.ne_of_fresh hk (hmem k' hk'))]
        exact hst
      by_cases hne : t = t₀
      · subst hne
        refine ⟨k :: upper, lower, ?_, hlen, hlower.mono (fun _ hb => hb) hold⟩
        show Function.update v.stack t (k :: v.stack t) t = _
        rw [Function.update_self, hstack]
        rfl
      · refine ⟨upper, lower, ?_, hlen, hlower.mono (fun _ hb => hb) hold⟩
        show Function.update v.stack t₀ (k :: v.stack t₀) t = _
        rw [Function.update_of_ne hne]
        exact hstack
  | @callback t₀ k rest _ _ =>
      refine ⟨upper, lower, hstack, hlen, hlower.mono (fun _ hb => hb) fun k' _ hst => ?_⟩
      show Function.update v.status k .inCallback k' = .inCallback
      by_cases hkk : k' = k
      · rw [hkk, Function.update_self]
      · rw [Function.update_of_ne hkk]
        exact hst
  | @resume t₀ k rest htop _ =>
      refine ⟨upper, lower, hstack, hlen, hlower.mono (fun _ hb => hb) fun k' hk' hst => ?_⟩
      show Function.update v.status k .active k' = .inCallback
      have hne : k' ≠ k := by
        rintro rfl
        -- the call that resumes is above those that are held
        have hk₀ : k' ∈ v.stack t₀ := by rw [htop]; exact List.mem_cons_self
        obtain rfl := h.disjoint t t₀ k' (hmem k' hk') hk₀
        have hlt := hkeep rfl
        have hnd := h.nodup t
        cases upper with
        | nil =>
            rw [hstack, List.nil_append] at hlt
            omega
        | cons u us =>
            rw [htop] at hstack
            obtain ⟨rfl, rfl⟩ := List.cons.inj hstack
            rw [htop] at hnd
            exact (List.nodup_cons.mp hnd).1 (List.mem_append_right _ hk')
      rw [Function.update_of_ne hne]
      exact hst
  | @leave t₀ k rest htop hk =>
      have hold : ∀ k' ∈ lower, v.status k' = .inCallback →
          Function.update v.status k .over k' = .inCallback := by
        intro k' _ hst
        have hne : k' ≠ k := by
          rintro rfl
          rw [hk] at hst
          cases hst
        rw [Function.update_of_ne hne]
        exact hst
      by_cases hne : t = t₀
      · subst hne
        cases upper with
        | nil =>
            -- the innermost call is in the library's code, so it is not held
            rw [List.nil_append] at hstack
            rw [← hstack, htop] at hlower
            have hin : v.status k = .inCallback := hlower
            rw [hk] at hin
            cases hin
        | cons u us =>
            refine ⟨us, lower, ?_, hlen, hlower.mono (fun _ hb => hb) hold⟩
            show Function.update v.stack t rest t = _
            rw [htop] at hstack
            rw [Function.update_self]
            exact (List.cons.inj hstack).2
      · refine ⟨upper, lower, ?_, hlen, hlower.mono (fun _ hb => hb) hold⟩
        show Function.update v.stack t₀ rest t = _
        rw [Function.update_of_ne hne]
        exact hstack
  | @baseCallback t₀ _ _ =>
      refine ⟨upper, lower, hstack, hlen, hlower.mono (fun _ hb => ?_) fun _ _ hst => hst⟩
      show Function.update v.base t₀ true t = true
      by_cases hne : t = t₀
      · rw [hne, Function.update_self]
      · rw [Function.update_of_ne hne]
        exact hb
  | @baseResume t₀ hnil _ =>
      refine ⟨upper, lower, hstack, hlen, hlower.mono (fun _ hb => ?_) fun _ _ hst => hst⟩
      show Function.update v.base t₀ false t = true
      have hne : t ≠ t₀ := by
        rintro rfl
        have hlt := hkeep rfl
        rw [hnil, List.length_nil] at hlt
        omega
      rw [Function.update_of_ne hne]
      exact hb
  | renew _ _ => exact ⟨upper, lower, hstack, hlen, hlower⟩

/-- A thread outside the library stays there until it acts. -/
theorem Turn.outside (hturn : Turn free v act v') (h : Nested free v) (hout : v.Outside free t)
    (henter : act ≠ .enters t) (hresume : act ≠ .resumes t) :
    v'.stack t = v.stack t ∧ v'.Outside free t := by
  have hstack : v'.stack t = v.stack t := by
    cases hturn with
    | same => rfl
    | answer _ => rfl
    | @enter t₀ k _ _ =>
        have hne : t ≠ t₀ := by
          rintro rfl
          exact henter rfl
        exact Function.update_of_ne hne ..
    | callback _ _ => rfl
    | resume _ _ => rfl
    | @leave t₀ k rest htop hk =>
        have hne : t ≠ t₀ := by
          rintro rfl
          rw [Stacks.Outside, htop] at hout
          have hin : v.status k = .inCallback := hout
          rw [hk] at hin
          cases hin
        exact Function.update_of_ne hne ..
    | baseCallback _ _ => rfl
    | baseResume _ _ => rfl
    | renew _ _ => rfl
  have hheld := hturn.held h hout.held (fun heq => absurd heq hresume)
  rw [← hstack] at hheld
  exact ⟨hstack, hheld.outside⟩

/-- The innermost call of a thread stays there until it is over. -/
theorem Turn.top {rest : List K} (hturn : Turn free v act v') (h : Nested free v)
    (hstack : v.stack t = k :: rest) (hk : v.status k = .active) :
    (v'.stack t = k :: rest ∧ (v'.status k = .active ∨ v'.status k = .inCallback)) ∨
      (v'.stack t = rest ∧ v'.status k = .over) := by
  have hmem : k ∈ v.stack t := by rw [hstack]; exact List.mem_cons_self
  have hstay : ∀ k₀ st, k₀ ≠ k → Function.update v.status k₀ st k = .active := by
    intro k₀ st hne
    rw [Function.update_of_ne (Ne.symm hne)]
    exact hk
  cases hturn with
  | same => exact Or.inl ⟨hstack, Or.inl hk⟩
  | @answer k₀ hk₀ =>
      exact Or.inl ⟨hstack, Or.inl (hstay k₀ .over (h.ne_of_fresh hk₀ hmem).symm)⟩
  | @enter t₀ k₀ hout hk₀ =>
      have hne : t ≠ t₀ := by
        rintro rfl
        rw [Stacks.Outside, hstack] at hout
        have hin : v.status k = .inCallback := hout
        rw [hk] at hin
        cases hin
      refine Or.inl ⟨?_, Or.inl (hstay k₀ .active (h.ne_of_fresh hk₀ hmem).symm)⟩
      show Function.update v.stack t₀ (k₀ :: v.stack t₀) t = _
      rw [Function.update_of_ne hne]
      exact hstack
  | @callback t₀ k₀ rest₀ _ _ =>
      refine Or.inl ⟨hstack, ?_⟩
      by_cases hkk : k₀ = k
      · subst hkk
        exact Or.inr (Function.update_self ..)
      · exact Or.inl (hstay k₀ .inCallback hkk)
  | @resume t₀ k₀ rest₀ _ hk₀ =>
      have hne : k₀ ≠ k := by
        rintro rfl
        rw [hk] at hk₀
        cases hk₀
      exact Or.inl ⟨hstack, Or.inl (hstay k₀ .active hne)⟩
  | @leave t₀ k₀ rest₀ htop _ =>
      by_cases hne : t = t₀
      · subst hne
        rw [hstack] at htop
        obtain ⟨rfl, rfl⟩ := List.cons.inj htop
        exact Or.inr ⟨Function.update_self .., Function.update_self ..⟩
      · have hk₀ : k₀ ≠ k := by
          rintro rfl
          exact hne (h.disjoint t t₀ k₀ hmem (by rw [htop]; exact List.mem_cons_self))
        refine Or.inl ⟨?_, Or.inl (hstay k₀ .over hk₀)⟩
        show Function.update v.stack t₀ rest₀ t = _
        rw [Function.update_of_ne hne]
        exact hstack
  | baseCallback _ _ => exact Or.inl ⟨hstack, Or.inl hk⟩
  | baseResume _ _ => exact Or.inl ⟨hstack, Or.inl hk⟩
  | renew _ _ => exact Or.inl ⟨hstack, Or.inl hk⟩

omit [DecidableEq K] in
/-- The renamed thread keeps what it is in. -/
theorem Stacks.Held.rename {t' u : T} {n : Nat} (hheld : v.Held free u n) (hne : t ≠ t')
    (hfree : ¬ free t) (hnil : v.stack t' = []) (hfree' : ¬ free t') (hbase : v.base t' = false) :
    (v.rename t t').Held free (if u = t then t' else u) n := by
  have hothers : u ≠ t' := by
    rintro rfl
    rw [hheld.base_eq_true hnil hfree'] at hbase
    cases hbase
  obtain ⟨upper, lower, hstack, hlen, hlower⟩ := hheld
  by_cases hu : u = t
  · rw [if_pos hu]
    subst hu
    refine ⟨upper, lower, ?_, hlen, ?_⟩
    · show Function.update (Function.update v.stack t' (v.stack u)) u [] t' = _
      rw [Function.update_of_ne (Ne.symm hne), Function.update_self]
      exact hstack
    · cases lower with
      | cons k rest => exact hlower
      | nil =>
          refine Or.inr ?_
          show Function.update (Function.update v.base t' (v.base u)) u false t' = true
          rw [Function.update_of_ne (Ne.symm hne), Function.update_self]
          exact hlower.resolve_left hfree
  · rw [if_neg hu]
    refine ⟨upper, lower, ?_, hlen, hlower.mono (fun _ hb => ?_) fun _ _ hst => hst⟩
    · show Function.update (Function.update v.stack t' (v.stack t)) t [] u = _
      rw [Function.update_of_ne hu, Function.update_of_ne hothers]
      exact hstack
    · show Function.update (Function.update v.base t' (v.base t)) t false u = true
      rw [Function.update_of_ne hu, Function.update_of_ne hothers]
      exact hb

end Rules

end Reentry
