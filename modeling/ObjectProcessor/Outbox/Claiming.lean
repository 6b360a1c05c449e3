import ObjectProcessor.Callback.Handler
import ObjectProcessor.Library.Drain

/-!
# A claim run

`claimProcessableOutboxEntries` asks for the oldest eligible entry again and again,
each time with the filter it built from the time it captured once.  The lease keeps
an entry it has just claimed out of that filter.
-/

namespace ObjectProcessor

open Library

/-- `findOneAndUpdate` with the sort `{ createdAt: 1 }`, which returns the document as it was
before the update. -/
def findOneAndUpdate (pick : LeastPick OutboxEntry.createdAt) (filter : OutboxEntry → Bool)
    (update : OutboxEntry → OutboxEntry) (outbox : List OutboxEntry) :
    Option (OutboxEntry × List OutboxEntry) :=
  (pick.find filter outbox).map fun entry =>
    (entry, updateMany (fun other => decide (other.id = entry.id)) update outbox)

section Loop

variable (cfg : Config) (picks : Nat → LeastPick OutboxEntry.createdAt) (instanceId : WorkerId)
  (now : Time)

/-- The object pushed for a claimed entry, rebuilt from the document before the update. -/
def claimedEntry (entry : OutboxEntry) : OutboxEntry :=
  { entry with
    status := .processing
    attempts := entry.attempts + 1
    claimedAt := some now
    claimedUntil := some (now + cfg.outboxClaimLeaseMs)
    claimedBy := some instanceId }

/-- The turns of the loop from the given index, with what has been claimed before. -/
def claimTurns : Nat → Nat → List OutboxEntry → List OutboxEntry →
    List OutboxEntry × List OutboxEntry
  | 0, _, outbox, claimedEntries => (claimedEntries, outbox)
  | remaining + 1, index, outbox, claimedEntries =>
      match findOneAndUpdate (picks index) (isProcessable cfg now)
          (claimUpdate cfg instanceId now) outbox with
      | none => (claimedEntries, outbox)
      | some (entry, after) =>
          claimTurns remaining (index + 1) after
            (claimedEntries ++ [claimedEntry cfg instanceId now entry])

/-- `claimProcessableOutboxEntries`: the claimed entries and the outbox afterwards. -/
def claimProcessableOutboxEntries (outbox : List OutboxEntry) :
    List OutboxEntry × List OutboxEntry :=
  claimTurns cfg picks instanceId now cfg.outboxQueryLimit 0 outbox []

/-- What is pushed is what the update has stored. -/
theorem claimedEntry_eq (entry : OutboxEntry) :
    claimedEntry cfg instanceId now entry = claimUpdate cfg instanceId now entry := rfl

/-- The turns take one least entry each. -/
theorem claimTurns_eq (remaining index : Nat) (outbox claimedEntries : List OutboxEntry) :
    claimTurns cfg picks instanceId now remaining index outbox claimedEntries =
      (claimedEntries ++
          (drain picks OutboxEntry.id (isProcessable cfg now) (claimUpdate cfg instanceId now)
            remaining index outbox).1.map (claimUpdate cfg instanceId now),
        (drain picks OutboxEntry.id (isProcessable cfg now) (claimUpdate cfg instanceId now)
          remaining index outbox).2) := by
  induction remaining generalizing index outbox claimedEntries with
  | zero => simp [claimTurns, drain]
  | succ remaining ih =>
      cases found : (picks index).find (isProcessable cfg now) outbox with
      | none => simp [claimTurns, findOneAndUpdate, drain, found]
      | some entry =>
          simp only [claimTurns, findOneAndUpdate, drain, found, Option.map_some, ih,
            claimedEntry_eq, List.append_assoc, List.singleton_append, List.map_cons]

end Loop

/-- A claim run has taken the oldest eligible entries. -/
structure OldestClaimed (cfg : Config) (instanceId : WorkerId) (now : Time)
    (outbox claimed after : List OutboxEntry) : Prop where
  count : claimed.length =
    min cfg.outboxQueryLimit (matchedCount (isProcessable cfg now) outbox)
  distinct : UniqueBy OutboxEntry.id claimed
  sorted : claimed.Pairwise fun earlier later => earlier.createdAt ≤ later.createdAt
  eligible : ∀ entry ∈ claimed, ∃ before ∈ outbox, isProcessable cfg now before = true ∧
    entry = claimUpdate cfg instanceId now before
  oldest : ∀ entry ∈ claimed, ∀ other ∈ outbox, isProcessable cfg now other = true →
    other.id ∉ claimed.map OutboxEntry.id → entry.createdAt ≤ other.createdAt
  stored : ∀ entry ∈ claimed, entry ∈ after
  others : after = updateMany (fun entry => decide (entry.id ∈ claimed.map OutboxEntry.id))
    (claimUpdate cfg instanceId now) outbox

/-- A claim run nobody interferes with takes exactly the oldest eligible entries, whichever of
equally old ones the database finds first. -/
theorem claims_oldest_eligible (cfg : Config) (picks : Nat → LeastPick OutboxEntry.createdAt)
    (instanceId : WorkerId) (now : Time) {outbox : List OutboxEntry}
    (unique : UniqueBy OutboxEntry.id outbox) :
    OldestClaimed cfg instanceId now outbox
      (claimProcessableOutboxEntries cfg picks instanceId now outbox).1
      (claimProcessableOutboxEntries cfg picks instanceId now outbox).2 := by
  have spec := drain_spec picks OutboxEntry.id (isProcessable cfg now)
    (claimUpdate cfg instanceId now) (fun _ => rfl)
    (fun entry _ => isProcessable_claimUpdate cfg instanceId now entry)
    cfg.outboxQueryLimit 0 unique
  rw [claimProcessableOutboxEntries, claimTurns_eq, List.nil_append]
  generalize drain picks OutboxEntry.id (isProcessable cfg now) (claimUpdate cfg instanceId now)
    cfg.outboxQueryLimit 0 outbox = result at spec ⊢
  have sameIds : (result.1.map (claimUpdate cfg instanceId now)).map OutboxEntry.id =
      result.1.map OutboxEntry.id := by
    rw [List.map_map]
    rfl
  constructor
  case count => rw [List.length_map, spec.count]
  case distinct =>
    rw [UniqueBy, sameIds]
    exact spec.distinct
  case sorted => exact List.pairwise_map.mpr spec.sorted
  case eligible =>
    intro entry member
    obtain ⟨before, taken, rfl⟩ := List.mem_map.mp member
    exact ⟨before, (spec.matched before taken).1, (spec.matched before taken).2, rfl⟩
  case oldest =>
    intro entry member other stored processable absent
    obtain ⟨before, taken, rfl⟩ := List.mem_map.mp member
    rw [sameIds] at absent
    exact spec.least before taken other stored processable absent
  case stored =>
    intro entry member
    obtain ⟨before, taken, rfl⟩ := List.mem_map.mp member
    rw [spec.after_eq]
    exact mem_updateMany_of_matched (spec.matched before taken).1
      (decide_eq_true (List.mem_map_of_mem taken))
  case others => rw [sameIds, spec.after_eq]

namespace Sample

/-- The stored document of a file. -/
def document (value : Nat) (fileId : String) : MetadataDocument where
  raw := .null
  metadata := metadata "1733826312"
  file :=
    { fileId := .str fileId
      filename := none
      contentType := none
      fileStatus := some (.str "complete") }
  s3 := { key := none, bucket := none }
  messaging := { publishedAt := none, correlationId, filesInBatch := 2 }
  id := objectId value

/-- A pending entry, one whose claim has expired, one still claimed and one as old as the
first. -/
def outbox : List OutboxEntry :=
  [ .created 20 (objectId 101) (document 1 fileA),
    claimUpdate config "lost" 10 (.created 10 (objectId 102) (document 2 fileB)),
    claimUpdate config "other" 400000 (.created 0 (objectId 103) (document 3 fileB)),
    .created 20 (objectId 104) (document 4 fileA) ]

/-- The configuration with a limit of two entries. -/
def twoEntries : Config := { config with outboxQueryLimit := 2 }

end Sample

/-- The expired claim is the oldest; of the two pending entries one is left. -/
theorem claims_oldest_eligible_sample :
    (claimProcessableOutboxEntries Sample.twoEntries (fun _ => .first _) "worker" 500000
        Sample.outbox).1.map OutboxEntry.id = [Sample.objectId 102, Sample.objectId 101] ∧
      OldestClaimed Sample.twoEntries "worker" 500000 Sample.outbox
        (claimProcessableOutboxEntries Sample.twoEntries (fun _ => .first _) "worker" 500000
          Sample.outbox).1
        (claimProcessableOutboxEntries Sample.twoEntries (fun _ => .first _) "worker" 500000
          Sample.outbox).2 :=
  ⟨by decide, claims_oldest_eligible _ _ _ _ (by decide)⟩

end ObjectProcessor
