import Mathlib.Tactic.Common

/-!
# Loops of attempts

After every attempt but the last one it may make, a loop asks a hook whether to try
again.  The hook keeps a state from attempt to attempt.
-/

namespace ObjectProcessor.Library

variable {State : Type*}

/-- Attempt again for as long as the hook says so and the loop may: the number of the last
attempt, and the state the hook has left. -/
def attemptLoop (hook : Nat → State → Bool × State) : Nat → Nat → State → Nat × State
  | 0, attempt, state => (attempt, state)
  | left + 1, attempt, state =>
      if (hook attempt state).1 then attemptLoop hook left (attempt + 1) (hook attempt state).2
      else (attempt, (hook attempt state).2)

/-- How a loop has ended, when the hook keeps the invariant for as long as it goes on. -/
structure LoopEnd (hook : Nat → State → Bool × State) (Inv : Nat → State → Prop)
    (first left last : Nat) (final : State) : Prop where
  reached : first ≤ last
  allowed : last ≤ first + left
  retried : ∀ attempt, first ≤ attempt → attempt < last →
    ∃ state, Inv attempt state ∧ (hook attempt state).1 = true
  /-- The loop was exhausted, and the hook was not asked, or the hook ended it. -/
  ended : (last = first + left ∧ Inv last final) ∨
    (last < first + left ∧
      ∃ state, Inv last state ∧ (hook last state).1 = false ∧ final = (hook last state).2)

theorem attemptLoop_end (hook : Nat → State → Bool × State) (Inv : Nat → State → Prop)
    (keeps : ∀ attempt state, Inv attempt state → (hook attempt state).1 = true →
      Inv (attempt + 1) (hook attempt state).2)
    (left first : Nat) {state : State} (start : Inv first state) :
    LoopEnd hook Inv first left (attemptLoop hook left first state).1
      (attemptLoop hook left first state).2 := by
  induction left generalizing first state with
  | zero =>
      refine ⟨Nat.le_refl _, Nat.le_refl _, ?_, Or.inl ⟨rfl, start⟩⟩
      intro attempt least before
      exact absurd before (Nat.not_lt.mpr least)
  | succ left ih =>
      rw [attemptLoop]
      by_cases again : (hook first state).1 = true
      · rw [if_pos again]
        have rest := ih (first + 1) (keeps first state start again)
        refine ⟨by have := rest.reached; omega, by have := rest.allowed; omega, ?_, ?_⟩
        · intro attempt least before
          rcases Nat.eq_or_lt_of_le least with rfl | later
          · exact ⟨state, start, again⟩
          · exact rest.retried attempt later before
        · rcases rest.ended with ⟨exhausted, holds⟩ | ⟨early, stopped⟩
          · exact Or.inl ⟨by omega, holds⟩
          · exact Or.inr ⟨by omega, stopped⟩
      · rw [if_neg again]
        refine ⟨Nat.le_refl _, Nat.le_add_right .., ?_, Or.inr ⟨by omega, state, start, ?_, rfl⟩⟩
        · intro attempt least before
          exact absurd before (Nat.not_lt.mpr least)
        · simpa using again

end ObjectProcessor.Library
