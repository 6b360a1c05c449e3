import Mathlib.Data.List.Induction

/-!
# Past-time properties of an event log

A log lists events with the most recent one first.  `Since keep began log` says
that some recorded event satisfies `began` and that every event recorded after it
satisfies `keep`.
-/

namespace ObjectProcessor.Library

variable {Event : Type*}

/-- Some event satisfies `began`, and all events after it satisfy `keep`. -/
def Since (keep began : Event → Prop) (log : List Event) : Prop :=
  ∃ later event earlier, log = later ++ event :: earlier ∧ began event ∧
    ∀ recent ∈ later, keep recent

namespace Since

variable {keep keep' began began' : Event → Prop} {event : Event} {log : List Event}

theorem head (holds : began event) : Since keep began (event :: log) :=
  ⟨[], event, log, rfl, holds, by simp⟩

theorem tail (kept : keep event) (since : Since keep began log) :
    Since keep began (event :: log) := by
  obtain ⟨later, origin, earlier, rfl, holds, all⟩ := since
  refine ⟨event :: later, origin, earlier, rfl, holds, ?_⟩
  intro recent member
  rcases List.mem_cons.mp member with rfl | member
  · exact kept
  · exact all recent member

theorem cons_iff : Since keep began (event :: log) ↔
    began event ∨ keep event ∧ Since keep began log := by
  constructor
  · rintro ⟨later, origin, earlier, same, holds, all⟩
    cases later with
    | nil =>
        cases same
        exact Or.inl holds
    | cons recent later =>
        cases same
        exact Or.inr ⟨all _ (List.mem_cons_self ..),
          later, origin, earlier, rfl, holds, fun e he => all e (List.mem_cons_of_mem _ he)⟩
  · rintro (holds | ⟨kept, since⟩)
    · exact head holds
    · exact tail kept since

/-- A log extended by events that all satisfy `keep`. -/
theorem append {recent : List Event} (kept : ∀ e ∈ recent, keep e)
    (since : Since keep began log) : Since keep began (recent ++ log) := by
  induction recent with
  | nil => exact since
  | cons e recent ih =>
      exact tail (kept e (List.mem_cons_self ..))
        (ih fun e he => kept e (List.mem_cons_of_mem _ he))

/-- When no origin of the second property may follow the origin of the first,
everything the second property promises of later events holds since the first. -/
theorem combine (first : Since keep began log) (second : Since keep' began' log)
    (excluded : ∀ e, began' e → ¬ keep e) :
    Since (fun e => keep e ∧ keep' e) began log := by
  induction log with
  | nil =>
      obtain ⟨later, _, _, same, _⟩ := first
      cases later <;> cases same
  | cons event log ih =>
      rcases cons_iff.mp first with holds | ⟨kept, first⟩
      · exact head holds
      · rcases cons_iff.mp second with holds | ⟨kept', second⟩
        · exact absurd kept (excluded event holds)
        · exact tail ⟨kept, kept'⟩ (ih first second)

/-- Of two events that each disturb what holds since the other, one is the latest. -/
theorem unique {first second : Event} (one : Since keep (· = first) log)
    (other : Since keep (· = second) log) (disturbs : ¬ keep first) (disturbs' : ¬ keep second) :
    first = second := by
  induction log with
  | nil =>
      obtain ⟨later, _, _, same, _⟩ := one
      cases later <;> cases same
  | cons event log ih =>
      rcases cons_iff.mp one with rfl | ⟨kept, one⟩
      · rcases cons_iff.mp other with same | ⟨kept, _⟩
        · exact same
        · exact absurd kept disturbs
      · rcases cons_iff.mp other with rfl | ⟨_, other⟩
        · exact absurd kept disturbs'
        · exact ih one other

/-- When the origin of the first property neither is an origin of the second nor may
follow one, the second origin lies within the time the first property speaks of. -/
theorem within (first : Since keep began log) (second : Since keep' began' log)
    (excluded : ∀ e, began e → ¬ began' e ∧ ¬ keep' e) :
    ∃ during origin before, log = during ++ origin :: before ∧ began' origin ∧
      (∀ recent ∈ during, keep recent) ∧ Since keep began before := by
  induction log with
  | nil =>
      obtain ⟨later, _, _, same, _⟩ := first
      cases later <;> cases same
  | cons event log ih =>
      rcases cons_iff.mp second with holds | ⟨kept', second⟩
      · rcases cons_iff.mp first with starts | ⟨_, first⟩
        · exact absurd holds (excluded event starts).1
        · exact ⟨[], event, log, rfl, holds, by simp, first⟩
      · rcases cons_iff.mp first with starts | ⟨kept, first⟩
        · exact absurd kept' (excluded event starts).2
        · obtain ⟨during, origin, before, rfl, holds, all, since⟩ := ih first second
          refine ⟨event :: during, origin, before, rfl, holds, ?_, since⟩
          exact List.forall_mem_cons.mpr ⟨kept, all⟩

end Since

/-- Every recorded event is justified by the events recorded before it. -/
def EveryEvent (justified : Event → List Event → Prop) (log : List Event) : Prop :=
  ∀ later event earlier, log = later ++ event :: earlier → justified event earlier

namespace EveryEvent

variable {justified : Event → List Event → Prop} {event : Event} {log : List Event}

theorem nil : EveryEvent justified [] := by
  intro later event earlier same
  simp at same

theorem cons (head : justified event log) (tail : EveryEvent justified log) :
    EveryEvent justified (event :: log) := by
  intro later recent earlier same
  cases later with
  | nil =>
      cases same
      exact head
  | cons first later =>
      cases same
      exact tail later recent earlier rfl

/-- Events recorded one after the other, each justified by the ones before. -/
theorem record {events : List Event} (tail : EveryEvent justified log)
    (each : ∀ front event back, events = front ++ event :: back →
      justified event (front.reverse ++ log)) :
    EveryEvent justified (events.reverse ++ log) := by
  induction events using List.reverseRecOn with
  | nil => exact tail
  | append_singleton front event ih =>
      rw [List.reverse_append, List.reverse_singleton, List.singleton_append, List.cons_append]
      refine cons (each front event [] rfl) (ih fun start middle back same => ?_)
      exact each start middle (back ++ [event]) (by rw [same]; simp)

/-- Events that need no justification. -/
theorem append {events : List Event} (tail : EveryEvent justified log)
    (each : ∀ event ∈ events, ∀ earlier, justified event earlier) :
    EveryEvent justified (events ++ log) := by
  induction events with
  | nil => exact tail
  | cons event events ih =>
      exact cons (each event (List.mem_cons_self ..) _)
        (ih fun other member => each other (List.mem_cons_of_mem _ member))

end EveryEvent

end ObjectProcessor.Library
