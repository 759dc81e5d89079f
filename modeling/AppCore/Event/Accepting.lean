/-
  AppCore.Event.Accepting

  The flag that lets publishing calls in: only a start sets it.
-/

import AppCore.Event.Ordinary

namespace AppCore
namespace Event

variable {Tid K : Type*} [DecidableEq Tid] [DecidableEq K] {s s' : Bus Tid K} {t : Thread Tid}
  {k : K}

theorem begin_accepting {call : Call} (h : begin s t k call = some s')
    (hacc : s'.globals.accepting = true) : s.globals.accepting = true ∨ call = .start := by
  cases begin_cases h with
  | startRefused _ => exact Or.inr rfl
  | started _ => exact Or.inr rfl
  | stopIdle _ => cases hacc
  | stopping _ => cases hacc
  | _ => exact Or.inl hacc

theorem proceedCall_accepting (h : proceedCall s t k = some s') :
    s'.globals.accepting = s.globals.accepting := by
  cases proceedCall_cases h with
  | publishing _ hadv => exact (advance_flags hadv).accepting
  | _ => rfl

theorem proceed_accepting (h : proceed s t = some s') :
    s'.globals.accepting = s.globals.accepting := by
  rcases proceed_cases h with ⟨k, rest, -, h⟩ | ⟨-, -, h⟩
  · exact proceedCall_accepting h
  · exact (proceedWorker_ordinary h).flags.accepting

theorem threadCreate_accepting {ret : SysErr} (h : threadCreate s t ret = some s')
    (hacc : s'.globals.accepting = true) : s.globals.accepting = true := by
  cases threadCreate_cases h with
  | failed _ _ _ => cases hacc
  | created _ _ _ => exact hacc

theorem join_accepting {ret : Int} (h : join s t ret = some s') :
    s'.globals.accepting = s.globals.accepting := by
  cases join_cases h <;> rfl

/-- Only a start opens the bus. -/
theorem next_accepting {e : Action Tid K} (h : next s e = some s')
    (hacc : s'.globals.accepting = true) :
    s.globals.accepting = true ∨ ∃ t k, e = .call t k .start := by
  cases e with
  | call t k call =>
      simp only [next] at h
      split at h
      · rcases begin_accepting h hacc with hopen | rfl
        · exact Or.inl hopen
        · exact Or.inr ⟨t, k, rfl⟩
      · cases h
  | proceed t => exact Or.inl ((proceed_accepting h).symm.trans hacc)
  | callbackReturn t ret =>
      exact Or.inl ((callbackReturn_ordinary h).flags.accepting.symm.trans hacc)
  | threadCreate t ret => exact Or.inl (threadCreate_accepting h hacc)
  | join t ret => exact Or.inl ((join_accepting h).symm.trans hacc)

end Event
end AppCore
