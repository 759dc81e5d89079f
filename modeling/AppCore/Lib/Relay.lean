/-
  AppCore.Lib.Relay

  Entries that several owners pass on from one shared list to another, each of them through a
  buffer of its own.  Nothing here depends on what the owners and the entries are.
-/

import Mathlib.Data.List.Basic
import Mathlib.Logic.Function.Basic

variable {O α : Type*} [DecidableEq O]

namespace Relay

/-- The entries of one owner. -/
def own (o : O) (l : List (O × α)) : List α :=
  l.filterMap fun p => if p.1 = o then some p.2 else none

end Relay

/-- What has come in of an owner and has not gone out is in its buffer, in the same order. -/
def Relay (inp out : List (O × α)) (buffer : O → List α) : Prop :=
  ∀ o, Relay.own o inp = Relay.own o out ++ buffer o

namespace Relay

section Own

variable {o o' : O} {x : α} {l l' : List (O × α)}

theorem own_append (o : O) (l l' : List (O × α)) : own o (l ++ l') = own o l ++ own o l' :=
  List.filterMap_append

theorem own_snoc_self (o : O) (l : List (O × α)) (x : α) :
    own o (l ++ [(o, x)]) = own o l ++ [x] := by
  rw [own_append]
  simp [own]

theorem own_snoc_of_ne (h : o' ≠ o) (l : List (O × α)) (x : α) :
    own o (l ++ [(o', x)]) = own o l := by
  rw [own_append]
  simp [own, h]

end Own

variable {inp out : List (O × α)} {buffer buffer' : O → List α} {o : O} {x : α}

theorem nil : Relay ([] : List (O × α)) [] fun _ => [] := fun _ => rfl

/-- An entry comes in. -/
theorem enter (h : Relay inp out buffer) (hbuffer : buffer' o = buffer o ++ [x])
    (hother : ∀ o', o' ≠ o → buffer' o' = buffer o') : Relay (inp ++ [(o, x)]) out buffer' := by
  intro o'
  by_cases ho : o' = o
  · subst ho
    rw [own_snoc_self, h o', hbuffer, List.append_assoc]
  · rw [own_snoc_of_ne (Ne.symm ho), h o', hother o' ho]

/-- The first entry of a buffer goes out. -/
theorem leave (h : Relay inp out buffer) (hbuffer : buffer o = x :: buffer' o)
    (hother : ∀ o', o' ≠ o → buffer' o' = buffer o') : Relay inp (out ++ [(o, x)]) buffer' := by
  intro o'
  by_cases ho : o' = o
  · subst ho
    rw [own_snoc_self, h o', hbuffer, List.append_assoc, List.singleton_append]
  · rw [own_snoc_of_ne (Ne.symm ho), h o', hother o' ho]

theorem same (h : Relay inp out buffer) (hbuffer : ∀ o, buffer' o = buffer o) :
    Relay inp out buffer' := by
  obtain rfl : buffer' = buffer := funext hbuffer
  exact h

end Relay
