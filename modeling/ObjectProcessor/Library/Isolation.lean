import Mathlib.Tactic.Common

/-!
# Isolated parties

Parties take steps on one world in any order, and each has its own view of it.  When a step
shows a party only what its view determines, and changes the view of no other party, every
party ends as if it had run alone.
-/

namespace ObjectProcessor.Library

variable {World Party Move View : Type*}

/-- The steps of a schedule, one after the other. -/
def runSchedule (step : Party → Move → World → World) (schedule : List (Party × Move))
    (world : World) : World :=
  schedule.foldl (fun world turn => step turn.1 turn.2 world) world

@[simp]
theorem runSchedule_nil (step : Party → Move → World → World) (world : World) :
    runSchedule step [] world = world := rfl

@[simp]
theorem runSchedule_cons (step : Party → Move → World → World) (turn : Party × Move)
    (rest : List (Party × Move)) (world : World) :
    runSchedule step (turn :: rest) world =
      runSchedule step rest (step turn.1 turn.2 world) := rfl

/-- No party sees the steps of another one. -/
structure Isolated (step : Party → Move → World → World) (view : Party → World → View) :
    Prop where
  own : ∀ party move left right, view party left = view party right →
    view party (step party move left) = view party (step party move right)
  others : ∀ party other move world, other ≠ party →
    view party (step other move world) = view party world

/-- The turns of one party. -/
def turnsOf [DecidableEq Party] (party : Party) (schedule : List (Party × Move)) :
    List (Party × Move) :=
  schedule.filter fun turn => turn.1 = party

namespace Isolated

variable [DecidableEq Party] {step : Party → Move → World → World} {view : Party → World → View}

/-- Worlds that look alike to a party go on doing so, when it takes the same turns in both and
others take turns in the first. -/
theorem view_run (isolated : Isolated step view) (party : Party)
    (schedule : List (Party × Move)) {left right : World}
    (same : view party left = view party right) :
    view party (runSchedule step schedule left) =
      view party (runSchedule step (turnsOf party schedule) right) := by
  induction schedule generalizing left right with
  | nil => exact same
  | cons turn rest ih =>
      obtain ⟨other, move⟩ := turn
      rw [runSchedule_cons]
      by_cases isOwn : other = party
      · subst isOwn
        rw [turnsOf, List.filter_cons_of_pos (by simp), runSchedule_cons]
        exact ih (isolated.own other move left right same)
      · rw [turnsOf, List.filter_cons_of_neg (by simpa using isOwn)]
        exact ih ((isolated.others party other move left isOwn).trans same)

/-- A party ends as if it had run alone. -/
theorem run_alone (isolated : Isolated step view) (party : Party)
    (schedule : List (Party × Move)) (world : World) :
    view party (runSchedule step schedule world) =
      view party (runSchedule step (turnsOf party schedule) world) :=
  isolated.view_run party schedule rfl

end Isolated

end ObjectProcessor.Library
