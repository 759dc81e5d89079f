/-
  AppCore.Lib.Checks

  Code that checks one thing after the other and stops with an error at the first that does not
  hold, and what is known when it has not stopped.
-/

import Mathlib.Data.List.Basic

namespace Checks

variable {ε α β : Type}

/-- Stop with the error unless the condition holds. -/
def check (p : Prop) [Decidable p] (e : ε) : Except ε Unit := if p then .ok () else .error e

/-- The value, or stop with the error. -/
def orError (o : Option α) (e : ε) : Except ε α :=
  match o with
  | some a => .ok a
  | none => .error e

/-- Check the elements of a list one after the other. -/
def checkEach (l : List α) (f : α → Except ε Unit) : Except ε Unit :=
  match l with
  | [] => .ok ()
  | a :: rest => f a >>= fun _ => checkEach rest f

section Rules

variable {p : Prop} [Decidable p] {e : ε} {a : α} {b : β}

@[simp] theorem check_eq_ok {u : Unit} : check p e = .ok u ↔ p := by
  unfold check
  split
  · exact ⟨fun _ => ‹p›, fun _ => rfl⟩
  · exact ⟨fun h => (by cases h), fun h => absurd h ‹¬ p›⟩

theorem bind_eq_ok {x : Except ε α} {f : α → Except ε β} :
    (x >>= f) = .ok b ↔ ∃ a, x = .ok a ∧ f a = .ok b := by
  cases x with
  | error e =>
      constructor
      · intro h
        cases h
      · rintro ⟨a, h, _⟩
        cases h
  | ok a =>
      constructor
      · exact fun h => ⟨a, rfl, h⟩
      · rintro ⟨a', ha, h⟩
        obtain rfl := Except.ok.inj ha
        exact h

@[simp] theorem orError_eq_ok {o : Option α} : orError o e = .ok a ↔ o = some a := by
  cases o with
  | none => exact ⟨fun h => (by cases h), fun h => (by cases h)⟩
  | some a' =>
      exact ⟨fun h => congrArg some (Except.ok.inj h), fun h => congrArg _ (Option.some.inj h)⟩

@[simp] theorem checkEach_eq_ok {l : List α} {f : α → Except ε Unit} {u : Unit} :
    checkEach l f = .ok u ↔ ∀ a ∈ l, f a = .ok () := by
  induction l with
  | nil => exact ⟨fun _ a ha => (List.not_mem_nil ha).elim, fun _ => rfl⟩
  | cons a rest ih =>
      rw [checkEach, bind_eq_ok, List.forall_mem_cons, ← ih]
      exact ⟨fun ⟨_, h⟩ => h, fun h => ⟨(), h⟩⟩

end Rules

end Checks
