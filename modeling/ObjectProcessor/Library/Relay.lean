import Mathlib.Data.Set.Basic
import Mathlib.Logic.Relation

/-!
# Relays

A relay takes messages in and tries to pass each of them on to a receiver, a bounded number of
times.  It may take a message to be delivered only once the receiver has acknowledged it, and
may give it up only when its attempts are spent; both are final.
-/

namespace ObjectProcessor.Library

/-- What has become of a message. -/
inductive Fate where
  | absent
  /-- It is to be delivered, and has been tried that often. -/
  | waiting (attempts : Nat)
  | delivered
  | givenUp
  deriving DecidableEq, Repr

def Fate.isFinal : Fate → Bool
  | .delivered | .givenUp => true
  | .absent | .waiting _ => false

structure Relay (Key : Type*) where
  fate : Key → Fate
  /-- The messages the receiver has acknowledged. -/
  acknowledged : Set Key

namespace Relay

variable {Key : Type*} {limit : Nat} {acknowledged : Prop} {before after : Fate}

/-- What a move may do to one message. -/
inductive Turn (limit : Nat) (acknowledged : Prop) : Fate → Fate → Prop where
  | stays (fate : Fate) : Turn limit acknowledged fate fate
  | accepted : Turn limit acknowledged .absent (.waiting 0)
  | tried {attempts : Nat} (room : attempts < limit) :
      Turn limit acknowledged (.waiting attempts) (.waiting (attempts + 1))
  | delivered {attempts : Nat} (received : acknowledged) :
      Turn limit acknowledged (.waiting (attempts + 1)) .delivered
  | givenUp : Turn limit acknowledged (.waiting limit) .givenUp

theorem Turn.eq_of_final (turn : Turn limit acknowledged before after)
    (final : before.isFinal = true) : after = before := by
  cases turn with
  | stays => rfl
  | _ => cases final

theorem Turn.known (turn : Turn limit acknowledged before after) (known : before ≠ .absent) :
    after ≠ .absent := by
  cases turn with
  | stays => exact known
  | _ => simp

/-- A move of the relay: any number of messages take a turn, and the receiver may acknowledge
some of them. -/
structure Moves (limit : Nat) (before after : Relay Key) : Prop where
  turns : ∀ key, Turn limit (key ∈ after.acknowledged) (before.fate key) (after.fate key)
  grows : before.acknowledged ⊆ after.acknowledged

/-- A relay that keeps its bounds. -/
structure Sound (limit : Nat) (relay : Relay Key) : Prop where
  bounded : ∀ key attempts, relay.fate key = .waiting attempts → attempts ≤ limit
  earned : ∀ key, relay.fate key = .delivered → key ∈ relay.acknowledged

/-- The relay that has taken nothing in. -/
def empty : Relay Key where
  fate := fun _ => .absent
  acknowledged := ∅

theorem sound_empty : Sound limit (empty : Relay Key) where
  bounded := by
    intro key attempts waits
    cases waits
  earned := by
    intro key delivered
    cases delivered

theorem Sound.moves {first last : Relay Key} (sound : Sound limit first)
    (move : Moves limit first last) : Sound limit last := by
  constructor
  · intro key attempts waits
    have turn := move.turns key
    have bounded := sound.bounded key
    rw [waits] at turn
    generalize first.fate key = before, ended : Fate.waiting attempts = after at turn bounded
    cases turn with
    | stays => exact bounded attempts ended.symm
    | accepted =>
        cases ended
        exact Nat.zero_le limit
    | tried room =>
        cases ended
        exact room
    | delivered => cases ended
    | givenUp => cases ended
  · intro key delivered
    have turn := move.turns key
    have earned := sound.earned key
    rw [delivered] at turn
    generalize first.fate key = before, ended : Fate.delivered = after at turn earned
    cases turn with
    | stays => exact move.grows (earned rfl)
    | delivered received => exact received
    | _ => cases ended

section Runs

variable {first last : Relay Key}

theorem Sound.run (sound : Sound limit first)
    (run : Relation.ReflTransGen (Moves limit) first last) : Sound limit last := by
  induction run with
  | refl => exact sound
  | tail _ move ih => exact ih.moves move

/-- What was delivered or given up stays so. -/
theorem fate_eq_of_final (run : Relation.ReflTransGen (Moves limit) first last) {key : Key}
    (final : (first.fate key).isFinal = true) : last.fate key = first.fate key := by
  induction run with
  | refl => rfl
  | tail _ move ih => exact ((move.turns key).eq_of_final (ih ▸ final)).trans ih

/-- A message that was taken in is not forgotten. -/
theorem known_of_run (run : Relation.ReflTransGen (Moves limit) first last) {key : Key}
    (known : first.fate key ≠ .absent) : last.fate key ≠ .absent := by
  induction run with
  | refl => exact known
  | tail _ move ih => exact (move.turns key).known ih

/-- A message is tried over and over, never fewer times than before. -/
theorem attempts_le_of_run (run : Relation.ReflTransGen (Moves limit) first last) {key : Key}
    {attempts later : Nat} (waited : first.fate key = .waiting attempts)
    (waits : last.fate key = .waiting later) : attempts ≤ later := by
  induction run generalizing later with
  | refl => exact (Fate.waiting.inj (waited.symm.trans waits)).le
  | tail run move ih =>
      rename_i middle last
      have turn := move.turns key
      rw [waits] at turn
      generalize start : middle.fate key = before, ended : Fate.waiting later = after at turn
      cases turn with
      | stays => exact ih (start.trans ended.symm)
      | tried =>
          cases ended
          exact (ih start).trans (Nat.le_succ _)
      | accepted => exact absurd start (known_of_run run (by simp [waited]))
      | delivered => cases ended
      | givenUp => cases ended

end Runs

end Relay

end ObjectProcessor.Library
