/-
  AppCore.Lib.Custody

  Objects that a caller makes, a worker uses, and a caller that has waited for the worker
  frees.  At every moment an object has one owner, and from the owners one can read off what
  the objects, the workers and the callers show.  Nothing here depends on what they are.
-/

import Mathlib.Logic.Function.Basic

namespace Custody

variable {O H C : Type*}

/-- Who has an object. -/
inductive Owner (H C : Type*) where
  | nobody
  /-- A caller is making it, and it has no worker yet. -/
  | maker (c : C)
  | worker (h : H)
  /-- Its worker `h` has gone, and `c` will free it. -/
  | reaper (c : C) (h : H)

/-- What a caller is doing with an object. -/
inductive Role (O : Type*) where
  | none
  | makes (o : O)
  /-- It waits for the worker to end. -/
  | joins (o : O)
  | reaps (o : O)

/-- What an object shows: whether it exists, and the worker that it names. -/
def Owner.handle : Owner H C → Option (Option H)
  | .nobody => .none
  | .maker _ => some .none
  | .worker h => some (some h)
  | .reaper _ h => some (some h)

variable {handle : O → Option (Option H)} {argument : H → Option O} {role : C → Role O}
  {owner : O → Owner H C}

/-- The objects, the object that each worker uses, and the callers, as the owners say. -/
structure Holds (handle : O → Option (Option H)) (argument : H → Option O) (role : C → Role O)
    (owner : O → Owner H C) : Prop where
  handle_eq : ∀ o, handle o = (owner o).handle
  worker : ∀ h o, argument h = some o ↔ owner o = .worker h
  maker : ∀ c o, role c = .makes o ↔ owner o = .maker c
  reaper : ∀ c o, role c = .reaps o ↔ ∃ h, owner o = .reaper c h
  joiner : ∀ c o, role c = .joins o → ∃ h, owner o = .worker h
  lone : ∀ c c' o, role c = .joins o → role c' = .joins o → c = c'

/-- There are no objects, and nobody does anything. -/
theorem Holds.empty :
    Holds (fun _ : O => none) (fun _ : H => none) (fun _ : C => .none) fun _ => .nobody where
  handle_eq := fun _ => rfl
  worker := fun _ _ => ⟨fun h => (by cases h), fun h => (by cases h)⟩
  maker := fun _ _ => ⟨fun h => (by cases h), fun h => (by cases h)⟩
  reaper := fun _ _ => ⟨fun h => (by cases h), by rintro ⟨_, h⟩; cases h⟩
  joiner := fun _ _ h => (by cases h)
  lone := fun _ _ _ h => (by cases h)

theorem Holds.exists_of_handle (hold : Holds handle argument role owner) {o : O} {h : H}
    (hhandle : handle o = some (some h)) :
    owner o = .worker h ∨ ∃ c, owner o = .reaper c h := by
  rw [hold.handle_eq] at hhandle
  cases ho : owner o with
  | worker h' =>
      rw [ho] at hhandle
      cases hhandle
      exact Or.inl rfl
  | reaper c h' =>
      rw [ho] at hhandle
      cases hhandle
      exact Or.inr ⟨c, rfl⟩
  | _ =>
      rw [ho] at hhandle
      cases hhandle

theorem Holds.nobody_of_handle (hold : Holds handle argument role owner) {o : O}
    (hfree : handle o = none) : owner o = .nobody := by
  rw [hold.handle_eq] at hfree
  cases ho : owner o with
  | nobody => rfl
  | _ =>
      rw [ho] at hfree
      cases hfree

/-- The worker that an object names is the only one that uses it. -/
theorem Holds.handle_of_argument (hold : Holds handle argument role owner) {o : O} {h : H}
    (harg : argument h = some o) : handle o = some (some h) := by
  rw [hold.handle_eq, (hold.worker h o).mp harg]
  rfl

section Steps

variable [DecidableEq C] {o : O} {h : H} {c : C}

/-- A caller does something else that has nothing to do with the objects. -/
theorem Holds.idle (hold : Holds handle argument role owner) (hrole : role c = .none) :
    Holds handle argument (Function.update role c .none) owner := by
  have hsame : Function.update role c .none = role := by
    rw [← hrole, Function.update_eq_self]
  rwa [hsame]

/-- A caller waits for the worker of an object, as the only one. -/
theorem Holds.join (hold : Holds handle argument role owner) (hrole : role c = .none)
    (hhandle : handle o = some (some h)) (hreaper : ∀ c, role c ≠ .reaps o)
    (hlone : ∀ c, role c ≠ .joins o) :
    Holds handle argument (Function.update role c (.joins o)) owner := by
  have howner : owner o = .worker h := by
    rcases hold.exists_of_handle hhandle with howner | ⟨c', howner⟩
    · exact howner
    · exact absurd ((hold.reaper c' o).mpr ⟨h, howner⟩) (hreaper c')
  obtain ⟨h1, h2, h3, h4, h5, h6⟩ := hold
  constructor
  all_goals grind [Function.update_apply]

/-- The wait ends without the worker. -/
theorem Holds.quit (hold : Holds handle argument role owner) (hrole : role c = .joins o) :
    Holds handle argument (Function.update role c .none) owner := by
  obtain ⟨h1, h2, h3, h4, h5, h6⟩ := hold
  constructor
  all_goals grind [Function.update_apply]

variable [DecidableEq O]

/-- A caller begins to make an object. -/
theorem Holds.make (hold : Holds handle argument role owner) (hfree : handle o = none)
    (hrole : role c = .none) :
    Holds (Function.update handle o (some none)) argument (Function.update role c (.makes o))
      (Function.update owner o (.maker c)) := by
  have hnobody := hold.nobody_of_handle hfree
  obtain ⟨h1, h2, h3, h4, h5, h6⟩ := hold
  constructor
  all_goals grind [Function.update_apply, Owner.handle]

/-- A caller frees the object that it could not make. -/
theorem Holds.abandon (hold : Holds handle argument role owner) (hrole : role c = .makes o) :
    Holds (Function.update handle o none) argument (Function.update role c .none)
      (Function.update owner o .nobody) := by
  have howner := (hold.maker c o).mp hrole
  obtain ⟨h1, h2, h3, h4, h5, h6⟩ := hold
  constructor
  all_goals grind [Function.update_apply, Owner.handle]

/-- A caller frees the object whose worker has gone. -/
theorem Holds.free (hold : Holds handle argument role owner) (hrole : role c = .reaps o) :
    Holds (Function.update handle o none) argument (Function.update role c .none)
      (Function.update owner o .nobody) := by
  obtain ⟨h, howner⟩ := (hold.reaper c o).mp hrole
  obtain ⟨h1, h2, h3, h4, h5, h6⟩ := hold
  constructor
  all_goals grind [Function.update_apply, Owner.handle]

variable [DecidableEq H]

/-- The object that a caller has made gets its worker. -/
theorem Holds.start (hold : Holds handle argument role owner) (hrole : role c = .makes o)
    (hfree : argument h = none) :
    Holds (Function.update handle o (some (some h))) (Function.update argument h (some o))
      (Function.update role c .none) (Function.update owner o (.worker h)) := by
  have howner := (hold.maker c o).mp hrole
  have hnone : ∀ o, owner o ≠ .worker h := by
    intro o ho
    rw [(hold.worker h o).mpr ho] at hfree
    cases hfree
  obtain ⟨h1, h2, h3, h4, h5, h6⟩ := hold
  constructor
  all_goals grind [Function.update_apply, Owner.handle]

/-- The wait of a caller ends with the worker. -/
theorem Holds.reap (hold : Holds handle argument role owner)
    (hrole : role c = .joins o) (hhandle : handle o = some (some h)) :
    Holds handle (Function.update argument h none) (Function.update role c (.reaps o))
      (Function.update owner o (.reaper c h)) := by
  have howner : owner o = .worker h := by
    obtain ⟨h', howner⟩ := hold.joiner c o hrole
    rw [hold.handle_eq, howner] at hhandle
    cases hhandle
    exact howner
  have honly : ∀ o', owner o' = .worker h → o' = o := by
    intro o' ho'
    have harg := (hold.worker h o').mpr ho'
    rw [(hold.worker h o).mpr howner] at harg
    exact (Option.some.inj harg).symm
  have hself : Function.update owner o (.reaper c h) o = .reaper c h := Function.update_self ..
  obtain ⟨h1, h2, h3, h4, h5, h6⟩ := hold
  constructor
  all_goals grind [Function.update_apply, Owner.handle]

end Steps

end Custody
