/-
  AppCore.Lib.Program

  Sequential code cut into its single writes.  A `Program` is a tree of writes,
  calls into the environment and tests of the state that ends at a place of the
  surrounding control flow; a `Code` says what a write does and which program
  the control flow runs next.  A `Contract` says what must hold at every point,
  before every write, at every call and at every place, and `wp` is the weakest
  condition under which a program keeps it.
-/

import AppCore.Lib.Machine

/-- Code up to the next place: single writes, calls the environment answers, and
    tests of the state. -/
inductive Program (State Op Req Ans Place : Type) where
  | done (p : Place)
  | write (o : Op) (next : Program State Op Req Ans Place)
  | call (r : Req) (next : Ans → Program State Op Req Ans Place)
  | test (b : State → Bool) (yes no : Program State Op Req Ans Place)

/-- The meaning of the writes, the effect of an answered call, and the program
    run from a place for an input. -/
structure Code (State Op Req Ans Place Input : Type) where
  start : Place → State → Prop
  write : Op → State → State
  answer : Req → Ans → State → State
  enter : Place → Input → State → Option (Program State Op Req Ans Place)

/-- What happens next: a write or a test, the answer of a call, or an input. -/
inductive Code.Event (Ans Input : Type) where
  | step
  | answer (a : Ans)
  | input (i : Input)
deriving DecidableEq, Repr

/-- What has to hold at every point, before a write, at a call and at a place. -/
structure Contract (State Op Req Place : Type) where
  good : State → Prop
  write : Op → State → Prop
  call : Req → State → Prop
  place : Place → State → Prop

/-- What two contracts ask. -/
def Contract.and {State Op Req Place : Type} (K K' : Contract State Op Req Place) :
    Contract State Op Req Place where
  good s := K.good s ∧ K'.good s
  write o s := K.write o s ∧ K'.write o s
  call r s := K.call r s ∧ K'.call r s
  place p s := K.place p s ∧ K'.place p s

namespace Code

variable {State Op Req Ans Place Input : Type}

/-- One step of the code. -/
def next (C : Code State Op Req Ans Place Input) :
    Program State Op Req Ans Place × State → Event Ans Input →
      Option (Program State Op Req Ans Place × State)
  | (.write o t, s), .step => some (t, C.write o s)
  | (.test b yes no, s), .step => some (if b s then yes else no, s)
  | (.call r k, s), .answer a => some (k a, C.answer r a s)
  | (.done p, s), .input i => (C.enter p i s).map fun t => (t, s)
  | _, _ => none

/-- The code as a machine, started at a place. -/
def machine (C : Code State Op Req Ans Place Input) :
    Machine (Program State Op Req Ans Place × State) (Event Ans Input) :=
  Machine.ofNext (fun x => ∃ p, x.1 = .done p ∧ C.start p x.2) C.next

/-- The place a program ends at, and the state there, when the environment
    answers by a function. -/
def eval (C : Code State Op Req Ans Place Input) (env : Req → Ans) :
    Program State Op Req Ans Place → State → Place × State
  | .done p, s => (p, s)
  | .write o t, s => C.eval env t (C.write o s)
  | .call r k, s => C.eval env (k (env r)) (C.answer r (env r) s)
  | .test b yes no, s => if b s then C.eval env yes s else C.eval env no s

/-- Some run leads from the place `p` in state `s` to the place `q` in state `t`. -/
def Leads (C : Code State Op Req Ans Place Input) (p : Place) (s : State) (q : Place)
    (t : State) : Prop :=
  ∃ es, C.machine.Run (.done p, s) es (.done q, t)

/-- The weakest condition under which a program keeps a contract. -/
def wp (C : Code State Op Req Ans Place Input) (K : Contract State Op Req Place) :
    Program State Op Req Ans Place → State → Prop
  | .done p, s => K.good s ∧ K.place p s
  | .write o t, s => K.good s ∧ K.write o s ∧ C.wp K t (C.write o s)
  | .call r k, s => K.good s ∧ K.call r s ∧ ∀ a, C.wp K (k a) (C.answer r a s)
  | .test b yes no, s => K.good s ∧ if b s then C.wp K yes s else C.wp K no s

/-- The code keeps a contract from place to place. -/
structure Meets (C : Code State Op Req Ans Place Input) (K : Contract State Op Req Place) :
    Prop where
  start : ∀ p s, C.start p s → K.good s ∧ K.place p s
  enter : ∀ p i s t, K.good s → K.place p s → C.enter p i s = some t → C.wp K t s

section Rules

variable {C : Code State Op Req Ans Place Input} {K : Contract State Op Req Place}
  {t : Program State Op Req Ans Place} {s : State} {p q : Place}

theorem wp.good (h : C.wp K t s) : K.good s := by
  cases t <;> exact h.1

theorem wp.place (h : C.wp K (.done p) s) : K.place p s := h.2

theorem wp.write {o : Op} (h : C.wp K (.write o t) s) : K.write o s := h.2.1

theorem wp.call {r : Req} {k : Ans → Program State Op Req Ans Place}
    (h : C.wp K (.call r k) s) : K.call r s := h.2.1

/-- A step from a point where the rest of the program keeps the contract leads to one, if the
    program entered by the step does. -/
theorem wp.step {e : Event Ans Input} {y : Program State Op Req Ans Place × State}
    (h : C.wp K t s)
    (henter : ∀ p i u, e = .input i → C.enter p i s = some u → K.good s → K.place p s →
      C.wp K u s)
    (hstep : C.next (t, s) e = some y) : C.wp K y.1 y.2 := by
  cases t with
  | done p =>
      cases e with
      | input i =>
          obtain ⟨u, hu, rfl⟩ := Option.map_eq_some_iff.mp hstep
          exact henter p i u rfl hu h.1 h.2
      | _ => cases hstep
  | write o t =>
      cases e with
      | step =>
          obtain rfl := Option.some.inj hstep
          exact h.2.2
      | _ => cases hstep
  | call r k =>
      cases e with
      | answer a =>
          obtain rfl := Option.some.inj hstep
          exact h.2.2 a
      | _ => cases hstep
  | test b yes no =>
      cases e with
      | step =>
          obtain rfl := Option.some.inj hstep
          have hbranch := h.2
          show C.wp K (if b s then yes else no) s
          split at hbranch
          · rwa [if_pos ‹_›]
          · rwa [if_neg ‹_›]
      | _ => cases hstep

/-- Code that keeps a contract keeps it at every step. -/
theorem Meets.step (h : C.Meets K) {e : Event Ans Input}
    {x y : Program State Op Req Ans Place × State} (hx : C.wp K x.1 x.2)
    (hstep : C.next x e = some y) : C.wp K y.1 y.2 :=
  hx.step (fun p i u _ hu hgood hplace => h.enter p i x.2 u hgood hplace hu) hstep

/-- The contract is kept along a run if the programs entered for its inputs keep it. -/
theorem wp.run {allowed : Input → Prop} {es : List (Event Ans Input)}
    {x : Program State Op Req Ans Place × State} (h : C.wp K t s)
    (henter : ∀ p i s u, allowed i → C.enter p i s = some u → K.good s → K.place p s →
      C.wp K u s)
    (hrun : C.machine.Run (t, s) es x) (hes : ∀ i, Event.input i ∈ es → allowed i) :
    C.wp K x.1 x.2 := by
  induction hrun with
  | nil => exact h
  | @snoc es u e v _ hlast ih =>
      have hu : C.wp K u.1 u.2 := ih fun i hi => hes i (List.mem_append_left _ hi)
      refine hu.step (fun p i w he => ?_) hlast
      subst he
      exact henter p i u.2 w (hes i (List.mem_append_right _ List.mem_cons_self))

/-- At every reachable point the rest of the program keeps the contract. -/
theorem Meets.reachable (h : C.Meets K) (hr : C.machine.Reachable (t, s)) : C.wp K t s := by
  have hinv : ∀ x, C.machine.Reachable x → C.wp K x.1 x.2 := by
    intro x hx
    refine hx.invariant (I := fun x => C.wp K x.1 x.2) ?_ ?_
    · rintro ⟨t, s⟩ ⟨p, rfl, hs⟩
      exact h.start p s hs
    · intro u e v hu hstep
      exact h.step hu hstep
  exact hinv _ hr

/-! ## Two contracts -/

/-- A program keeps two contracts at once when it keeps each. -/
theorem wp_and {K' : Contract State Op Req Place} (h : C.wp K t s) (h' : C.wp K' t s) :
    C.wp (K.and K') t s := by
  induction t generalizing s with
  | done p => exact ⟨⟨h.1, h'.1⟩, h.2, h'.2⟩
  | write o t ih => exact ⟨⟨h.1, h'.1⟩, ⟨h.2.1, h'.2.1⟩, ih h.2.2 h'.2.2⟩
  | call r k ih => exact ⟨⟨h.1, h'.1⟩, ⟨h.2.1, h'.2.1⟩, fun a => ih a (h.2.2 a) (h'.2.2 a)⟩
  | test b yes no ihy ihn =>
      refine ⟨⟨h.1, h'.1⟩, ?_⟩
      have hbranch := h.2
      have hbranch' := h'.2
      cases hb : b s with
      | true =>
          rw [hb, if_pos rfl] at hbranch hbranch'
          rw [if_pos rfl]
          exact ihy hbranch hbranch'
      | false =>
          rw [hb, if_neg Bool.false_ne_true] at hbranch hbranch'
          rw [if_neg Bool.false_ne_true]
          exact ihn hbranch hbranch'

/-- Code that keeps a contract keeps a second one that holds wherever the first does. -/
theorem Meets.and {K' : Contract State Op Req Place} (h : C.Meets K)
    (hstart : ∀ p s, C.start p s → K'.good s ∧ K'.place p s)
    (henter : ∀ p i s t, (K.good s ∧ K'.good s) → (K.place p s ∧ K'.place p s) →
      C.enter p i s = some t → C.wp K' t s) : C.Meets (K.and K') where
  start p s hs := by
    obtain ⟨hgood, hplace⟩ := h.start p s hs
    obtain ⟨hgood', hplace'⟩ := hstart p s hs
    exact ⟨⟨hgood, hgood'⟩, hplace, hplace'⟩
  enter p i s t hgood hplace ht :=
    wp_and (h.enter p i s t hgood.1 hplace.1 ht) (henter p i s t hgood hplace ht)

/-! ## Runs from place to place -/

/-- Answered by a function, a program runs to the place and state it evaluates to. -/
theorem run_eval (C : Code State Op Req Ans Place Input) (env : Req → Ans)
    (t : Program State Op Req Ans Place) (s : State) :
    ∃ es, C.machine.Run (t, s) es (.done (C.eval env t s).1, (C.eval env t s).2) := by
  induction t generalizing s with
  | done p => exact ⟨[], Machine.Run.nil⟩
  | write o t ih =>
      obtain ⟨es, hes⟩ := ih (C.write o s)
      exact ⟨_, (Machine.Run.single (e := Event.step) rfl).append hes⟩
  | call r k ih =>
      obtain ⟨es, hes⟩ := ih (env r) (C.answer r (env r) s)
      exact ⟨_, (Machine.Run.single (e := Event.answer (env r)) rfl).append hes⟩
  | test b yes no ihy ihn =>
      have hstep : C.machine.Run (.test b yes no, s) [.step] (if b s then yes else no, s) :=
        Machine.Run.single rfl
      show ∃ es, C.machine.Run _ es (.done (if b s then C.eval env yes s else _).1,
        (if b s then C.eval env yes s else _).2)
      cases hb : b s with
      | true =>
          obtain ⟨es, hes⟩ := ihy s
          rw [hb] at hstep
          exact ⟨_, hstep.append hes⟩
      | false =>
          obtain ⟨es, hes⟩ := ihn s
          rw [hb] at hstep
          exact ⟨_, hstep.append hes⟩

theorem Leads.refl (C : Code State Op Req Ans Place Input) (p : Place) (s : State) :
    C.Leads p s p s := ⟨[], Machine.Run.nil⟩

theorem Leads.trans {r : Place} {u v : State} (h : C.Leads p s q u) (h' : C.Leads q u r v) :
    C.Leads p s r v := by
  obtain ⟨es, hes⟩ := h
  obtain ⟨fs, hfs⟩ := h'
  exact ⟨es ++ fs, hes.append hfs⟩

/-- What is reached from a reachable place is reachable. -/
theorem Leads.reachable {u : State} (h : C.Leads p s q u)
    (hs : C.machine.Reachable (.done p, s)) : C.machine.Reachable (.done q, u) := by
  obtain ⟨es, hes⟩ := h
  exact hs.run hes

theorem reachable_start (h : C.start p s) : C.machine.Reachable (.done p, s) :=
  ⟨_, [], ⟨p, rfl, h⟩, Machine.Run.nil⟩

/-- From a place the code runs to where the program entered there evaluates to. -/
theorem Leads.enter (env : Req → Ans) {i : Input} {u : State}
    (h : C.enter p i s = some t) (heval : C.eval env t s = (q, u)) : C.Leads p s q u := by
  obtain ⟨es, hes⟩ := C.run_eval env t s
  rw [heval] at hes
  have hfirst : C.machine.Run (.done p, s) [.input i] (t, s) := by
    refine Machine.Run.single ?_
    show (C.enter p i s).map _ = _
    rw [h]
    rfl
  exact ⟨_, hfirst.append hes⟩

/-- Going on to another place. -/
theorem Leads.jump {i : Input} (h : C.enter p i s = some (.done q)) : C.Leads p s q s := by
  refine ⟨[.input i], Machine.Run.single ?_⟩
  show (C.enter p i s).map _ = _
  rw [h]
  rfl

end Rules

end Code
