import Mathlib.Tactic.Linarith
import ObjectProcessor.Logging.Metrics
import ObjectProcessor.Outbox.Entry

/-!
# The backlog of the outbox

After every poll the number of open entries and the age of the oldest are emitted.  An
entry under a claim is open too, whether or not its claim can still be taken over.
-/

namespace ObjectProcessor

open Library

/-- `countResult?.n ?? 0`: no group is formed when nothing matches. -/
def pendingOutboxCount (outbox : List OutboxEntry) : Nat :=
  matchedCount OutboxEntry.isOpen outbox

/-- `oldestEntry?.createdAt ?? null`, of the first open entry by time of creation. -/
def oldestPendingCreatedAt (outbox : List OutboxEntry) : Option Time :=
  ((outbox.filter OutboxEntry.isOpen).map OutboxEntry.createdAt).min?

/-- What `getPendingOutboxMetrics` resolves to.  Its two queries follow each other, so the
second may read a later state of the outbox. -/
structure PendingOutboxMetrics where
  count : Nat
  oldestCreatedAt : Option Time
  deriving DecidableEq, Repr

def getPendingOutboxMetrics (counted sorted : List OutboxEntry) : PendingOutboxMetrics where
  count := pendingOutboxCount counted
  oldestCreatedAt := oldestPendingCreatedAt sorted

/-- `Math.max(0, (Date.now() - oldestCreatedAt) / 1000)`, or zero without an open entry. -/
def oldestPendingAgeSeconds (now : Time) (oldestCreatedAt : Option Time) : Rat :=
  match oldestCreatedAt with
  | some createdAt => max 0 ((now - createdAt : Rat) / 1000)
  | none => 0

/-- `emitPollMetrics`, with what the backlog queries return unless they reject. -/
def emitPollMetrics (isMetricsEnabled : Bool) (outcome : String)
    (backlog : Option PendingOutboxMetrics) (now : Time) : List Metric :=
  emitMetric isMetricsEnabled "outbox.poll" 1 (outcomeDimension outcome) ++
    match backlog with
    | some metrics =>
        emitMetric isMetricsEnabled "outbox.pending_count" metrics.count [] ++
          emitMetric isMetricsEnabled "outbox.oldest_pending_age_seconds"
            (oldestPendingAgeSeconds now metrics.oldestCreatedAt) []
    | none => []

theorem oldestPendingCreatedAt_eq_none {outbox : List OutboxEntry} :
    oldestPendingCreatedAt outbox = none ↔ ∀ entry ∈ outbox, entry.isOpen = false := by
  simp [oldestPendingCreatedAt]

/-- The oldest time of creation is one of an open entry, and no open entry is older. -/
theorem oldestPendingCreatedAt_eq_some {outbox : List OutboxEntry} {createdAt : Time} :
    oldestPendingCreatedAt outbox = some createdAt ↔
      (∃ entry ∈ outbox, entry.isOpen = true ∧ entry.createdAt = createdAt) ∧
        ∀ entry ∈ outbox, entry.isOpen = true → createdAt ≤ entry.createdAt := by
  simp only [oldestPendingCreatedAt, List.min?_eq_some_iff, List.mem_map, List.mem_filter,
    and_assoc]
  refine and_congr_right fun _ => ⟨fun least entry member isOpen => ?_, ?_⟩
  · exact least _ ⟨entry, member, isOpen, rfl⟩
  · rintro least _ ⟨entry, member, isOpen, rfl⟩
    exact least entry member isOpen

/-- An open entry keeps the age at least as high as its own. -/
theorem age_le_oldestPendingAgeSeconds {outbox : List OutboxEntry} {entry : OutboxEntry}
    (member : entry ∈ outbox) (isOpen : entry.isOpen = true) (now : Time) :
    (now - entry.createdAt : Rat) / 1000 ≤
      oldestPendingAgeSeconds now (oldestPendingCreatedAt outbox) := by
  cases oldest : oldestPendingCreatedAt outbox with
  | none =>
      rw [oldestPendingCreatedAt_eq_none.mp oldest entry member] at isOpen
      cases isOpen
  | some createdAt =>
      have older : (createdAt : Rat) ≤ entry.createdAt := by
        exact_mod_cast (oldestPendingCreatedAt_eq_some.mp oldest).2 entry member isOpen
      have younger : (now - entry.createdAt : Rat) / 1000 ≤ (now - createdAt : Rat) / 1000 := by
        gcongr
      exact younger.trans (le_max_right ..)

end ObjectProcessor
