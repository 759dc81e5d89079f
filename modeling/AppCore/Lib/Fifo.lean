/-
  AppCore.Lib.Fifo

  A bounded first-in first-out list with many producers and consumers, as a
  transition relation with a record of what goes in and out.  A full list either
  refuses an element or drops its oldest one for it, and a closed list takes
  nothing any more.
-/

import Mathlib.Data.List.Basic

namespace Fifo

/-- An element enters the list, leaves it to a consumer, or is dropped. -/
inductive Obs (α : Type*) where
  | accepted (x : α)
  | received (x : α)
  | dropped (x : α)
deriving DecidableEq, Repr

/-- A bounded list. -/
structure State (α : Type*) where
  items : List α
  capacity : Nat
  closed : Bool
  dropOldest : Bool

variable {α : Type*}

/-- The steps of a bounded list. -/
inductive Step : State α → List (Obs α) → State α → Prop
  | stutter {q} : Step q [] q
  | close {q} : Step q [] { q with closed := true }
  | push {q x} : q.closed = false → q.items.length < q.capacity →
      Step q [.accepted x] { q with items := q.items ++ [x] }
  | replace {q x oldest rest} : q.closed = false → q.dropOldest = true →
      q.items = oldest :: rest → q.items.length = q.capacity →
      Step q [.dropped oldest, .accepted x] { q with items := rest ++ [x] }
  | pop {q x rest} : q.items = x :: rest → Step q [.received x] { q with items := rest }

/-- The elements that entered, in order. -/
def accepted (os : List (Obs α)) : List α :=
  os.filterMap fun
    | .accepted x => some x
    | _ => none

/-- The elements that left, in order. -/
def removed (os : List (Obs α)) : List α :=
  os.filterMap fun
    | .received x => some x
    | .dropped x => some x
    | _ => none

/-- The elements that left to a consumer, in order. -/
def received (os : List (Obs α)) : List α :=
  os.filterMap fun
    | .received x => some x
    | _ => none

/-- The elements that were dropped, in order. -/
def dropped (os : List (Obs α)) : List α :=
  os.filterMap fun
    | .dropped x => some x
    | _ => none

/-- The length of a list of `d` elements after what is recorded. -/
def depth : Nat → List (Obs α) → Nat
  | d, [] => d
  | d, .accepted _ :: os => depth (d + 1) os
  | d, .received _ :: os => depth (d - 1) os
  | d, .dropped _ :: os => depth (d - 1) os

/-- The lengths a list of `d` elements has each time an element has entered. -/
def produced : Nat → List (Obs α) → List Nat
  | _, [] => []
  | d, .accepted _ :: os => (d + 1) :: produced (d + 1) os
  | d, .received _ :: os => produced (d - 1) os
  | d, .dropped _ :: os => produced (d - 1) os

section Record

variable {os os' : List (Obs α)}

@[simp] theorem accepted_append : accepted (os ++ os') = accepted os ++ accepted os' :=
  List.filterMap_append
@[simp] theorem removed_append : removed (os ++ os') = removed os ++ removed os' :=
  List.filterMap_append
@[simp] theorem received_append : received (os ++ os') = received os ++ received os' :=
  List.filterMap_append
@[simp] theorem dropped_append : dropped (os ++ os') = dropped os ++ dropped os' :=
  List.filterMap_append

theorem depth_append (d : Nat) : depth d (os ++ os') = depth (depth d os) os' := by
  induction os generalizing d with
  | nil => rfl
  | cons o os ih =>
      cases o with
      | accepted x => exact ih (d + 1)
      | received x => exact ih (d - 1)
      | dropped x => exact ih (d - 1)

theorem produced_append (d : Nat) :
    produced d (os ++ os') = produced d os ++ produced (depth d os) os' := by
  induction os generalizing d with
  | nil => rfl
  | cons o os ih =>
      cases o with
      | accepted x => exact congrArg ((d + 1) :: ·) (ih (d + 1))
      | received x => exact ih (d - 1)
      | dropped x => exact ih (d - 1)

end Record

/-- A run: the steps' records one after the other. -/
inductive Run (q : State α) : List (Obs α) → State α → Prop
  | nil : Run q [] q
  | snoc {os os' q' q''} : Run q os q' → Step q' os' q'' → Run q (os ++ os') q''

section Rules

variable {q q' : State α} {os : List (Obs α)}

/-- What enters a step leaves it or stays, in order. -/
theorem Step.conserve (h : Step q os q') :
    q.items ++ accepted os = removed os ++ q'.items := by
  cases h with
  | stutter => simp [accepted, removed]
  | close => simp [accepted, removed]
  | push => simp [accepted, removed]
  | replace _ _ heq _ => simp [accepted, removed, heq]
  | pop heq => simp [accepted, removed, heq]

/-- First in, first out: what entered a run left it or is still there, in order. -/
theorem Run.conserve (h : Run q os q') : q.items ++ accepted os = removed os ++ q'.items := by
  induction h with
  | nil => simp [accepted, removed]
  | snoc _ hstep ih =>
      rw [accepted_append, removed_append, ← List.append_assoc, ih, List.append_assoc,
        hstep.conserve, List.append_assoc]

end Rules

end Fifo
