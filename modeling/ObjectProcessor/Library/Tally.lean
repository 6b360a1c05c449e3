import Mathlib.Algebra.BigOperators.Ring.Finset
import Mathlib.Algebra.Order.BigOperators.Group.Finset

/-!
# Counting the events of a log

Events may carry a label, such as the party that caused them.  What holds of the
counts for every label holds of the counts over the whole log.
-/

namespace ObjectProcessor.Library

open Finset

variable {Event Label : Type*} [DecidableEq Label]

/-- The event counts and carries the label. -/
def labelled (label : Event → Option Label) (who : Label) (counts : Event → Bool)
    (event : Event) : Bool :=
  counts event && label event = some who

variable {label : Event → Option Label} {counts few many : Event → Bool} {log : List Event}

/-- Every counted event carries one of the labels, so the counts for each add up. -/
theorem countP_eq_sum_labelled (labels : Finset Label)
    (covered : ∀ event ∈ log, counts event = true → ∃ who ∈ labels, label event = some who) :
    log.countP counts = ∑ who ∈ labels, log.countP (labelled label who counts) := by
  induction log with
  | nil => simp
  | cons event log ih =>
      have rest := ih fun other member => covered other (List.mem_cons_of_mem _ member)
      simp only [List.countP_cons, sum_add_distrib, ← rest, Nat.add_left_cancel_iff]
      cases isCounted : counts event with
      | false => simp [labelled, isCounted]
      | true =>
          obtain ⟨who, member, carries⟩ := covered event (List.mem_cons_self ..) isCounted
          simp [labelled, isCounted, carries, member]

theorem countP_append_of_silent (recent : List Event)
    (silent : ∀ event ∈ recent, counts event = false) :
    (recent ++ log).countP counts = log.countP counts := by
  have none : recent.countP counts = 0 :=
    List.countP_eq_zero.mpr fun event member => by simp [silent event member]
  rw [List.countP_append, none, Nat.zero_add]

/-- The labels a log carries. -/
def labelsOf (label : Event → Option Label) (log : List Event) : Finset Label :=
  (log.filterMap label).toFinset

theorem covered_by_labelsOf (carries : ∀ event, counts event = true → (label event).isSome = true)
    (event : Event) (member : event ∈ log) (isCounted : counts event = true) :
    ∃ who ∈ labelsOf label log, label event = some who := by
  obtain ⟨who, same⟩ := Option.isSome_iff_exists.mp (carries event isCounted)
  exact ⟨who, List.mem_toFinset.mpr (List.mem_filterMap.mpr ⟨event, member, same⟩), same⟩

/-- What is counted less often for every label is counted less often. -/
theorem countP_le_of_labelled (carriesFew : ∀ event, few event = true → (label event).isSome = true)
    (carriesMany : ∀ event, many event = true → (label event).isSome = true)
    (each : ∀ who, log.countP (labelled label who few) ≤ log.countP (labelled label who many)) :
    log.countP few ≤ log.countP many := by
  rw [countP_eq_sum_labelled _ (covered_by_labelsOf carriesFew),
    countP_eq_sum_labelled _ (covered_by_labelsOf carriesMany)]
  exact sum_le_sum fun who _ => each who

/-- What is counted equally often for every label is counted equally often. -/
theorem countP_eq_of_labelled (carriesFew : ∀ event, few event = true → (label event).isSome = true)
    (carriesMany : ∀ event, many event = true → (label event).isSome = true)
    (each : ∀ who, log.countP (labelled label who few) = log.countP (labelled label who many)) :
    log.countP few = log.countP many := by
  refine Nat.le_antisymm ?_ ?_
  · exact countP_le_of_labelled carriesFew carriesMany fun who => Nat.le_of_eq (each who)
  · exact countP_le_of_labelled carriesMany carriesFew fun who => Nat.le_of_eq (each who).symm

end ObjectProcessor.Library
