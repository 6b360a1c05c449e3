import ObjectProcessor.Service.Invariant

/-!
# The record invariant of an outbox entry

Each status comes with its own fields: claim fields under a claim only, an error
and the time of the last attempt once a delivery has failed.  The attempts
counter stays within the configured maximum.
-/

namespace ObjectProcessor

open Library

/-- The entry carries no field of a claim. -/
def OutboxEntry.unclaimed (entry : OutboxEntry) : Prop :=
  entry.claimedAt = none ∧ entry.claimedUntil = none ∧ entry.claimedBy = none

structure RecordInvariant (cfg : Config) (entry : OutboxEntry) : Prop where
  pending : entry.status = .pending →
    entry.attempts < cfg.outboxMaxAttempts ∧ entry.unclaimed ∧
      (entry.error.isSome = true ↔ 0 < entry.attempts) ∧
      (entry.lastAttemptedAt.isSome = true ↔ 0 < entry.attempts)
  processing : entry.status = .processing →
    1 ≤ entry.attempts ∧ entry.attempts ≤ cfg.outboxMaxAttempts ∧
      ∃ since worker, entry.claimedAt = some since ∧
        entry.claimedUntil = some (since + cfg.outboxClaimLeaseMs) ∧ entry.claimedBy = some worker
  sent : entry.status = .sent →
    1 ≤ entry.attempts ∧ entry.attempts ≤ cfg.outboxMaxAttempts ∧ entry.unclaimed ∧
      entry.error = none ∧ entry.lastAttemptedAt.isSome = true
  permanentFailure : entry.status = .permanentFailure →
    entry.attempts = cfg.outboxMaxAttempts ∧ entry.unclaimed ∧
      entry.error.isSome = true ∧ entry.lastAttemptedAt.isSome = true

variable {cfg : Config} {entry : OutboxEntry}

theorem recordInvariant_created (attempts : 1 ≤ cfg.outboxMaxAttempts) (now : Time) (id : ObjectId)
    (document : MetadataDocument) : RecordInvariant cfg (.created now id document) := by
  constructor
  · intro _
    exact ⟨attempts, ⟨rfl, rfl, rfl⟩, by simp [OutboxEntry.created], by simp [OutboxEntry.created]⟩
  · intro processing
    cases processing
  · intro sent
    cases sent
  · intro givenUp
    cases givenUp

theorem recordInvariant_claimed {now : Time} (worker : WorkerId)
    (processable : isProcessable cfg now entry = true) :
    RecordInvariant cfg (claimUpdate cfg worker now entry) := by
  have allowed := (isProcessable_iff.mp processable).1
  constructor
  · intro pending
    cases pending
  · intro _
    exact ⟨Nat.le_add_left 1 entry.attempts, allowed, now, worker, rfl, rfl, rfl⟩
  · intro sent
    cases sent
  · intro givenUp
    cases givenUp

theorem recordInvariant_sent (holds : RecordInvariant cfg entry)
    (processing : entry.status = .processing) (now : Time) :
    RecordInvariant cfg (finalizeSucceeded now entry) := by
  obtain ⟨charged, allowed, _⟩ := holds.processing processing
  constructor
  · intro pending
    cases pending
  · intro processing
    cases processing
  · intro _
    exact ⟨charged, allowed, ⟨rfl, rfl, rfl⟩, rfl, rfl⟩
  · intro givenUp
    cases givenUp

theorem recordInvariant_failed (holds : RecordInvariant cfg entry)
    (processing : entry.status = .processing) (error : PublishError) (now : Time) :
    RecordInvariant cfg
      (buildClaimedFailurePipeline cfg.outboxMaxAttempts (some error) now entry) := by
  obtain ⟨charged, allowed, _⟩ := holds.processing processing
  by_cases spent : cfg.outboxMaxAttempts ≤ entry.attempts
  · constructor
    · intro pending
      simp [buildClaimedFailurePipeline, spent] at pending
    · intro processing
      simp [buildClaimedFailurePipeline, spent] at processing
    · intro sent
      simp [buildClaimedFailurePipeline, spent] at sent
    · intro _
      exact ⟨Nat.le_antisymm allowed spent, ⟨rfl, rfl, rfl⟩, rfl, rfl⟩
  · constructor
    · intro _
      refine ⟨Nat.lt_of_not_le spent, ⟨rfl, rfl, rfl⟩, ?_, ?_⟩
      · simpa [buildClaimedFailurePipeline] using Nat.lt_of_succ_le charged
      · simpa [buildClaimedFailurePipeline] using Nat.lt_of_succ_le charged
    · intro processing
      simp [buildClaimedFailurePipeline, spent] at processing
    · intro sent
      simp [buildClaimedFailurePipeline, spent] at sent
    · intro givenUp
      simp [buildClaimedFailurePipeline, spent] at givenUp

/-- Whatever a step does to an entry, its record stays well formed. -/
theorem recordInvariant_step {system next : System} {action : Action} {after : OutboxEntry}
    (holds : RecordInvariant cfg entry) (step : EntryStep cfg system action next entry after) :
    RecordInvariant cfg after := by
  cases step with
  | kept => exact holds
  | claimed acts phase processable recorded => exact recordInvariant_claimed _ processable
  | finalised acts phase change recorded =>
      rename_i outcome
      have processing := change.processing
      obtain ⟨error, now, named, _, rfl⟩ := change
      cases outcome with
      | succeeded => exact recordInvariant_sent holds processing now
      | failed =>
          obtain ⟨error, rfl⟩ := Option.isSome_iff_exists.mp (named rfl)
          exact recordInvariant_failed holds processing error now

/-- In every reachable state every entry keeps its record invariant. -/
theorem Reachable.records {system : System} (attempts : 1 ≤ cfg.outboxMaxAttempts)
    (reachable : Reachable cfg system) :
    ∀ entry ∈ system.store.outbox, RecordInvariant cfg entry := by
  refine Reaches.induction (motive := fun system => ∀ entry ∈ system.store.outbox,
    RecordInvariant cfg entry) reachable ?_ ?_
  · simp [System.initial]
  · intro before action after reached holds accepted entry member
    rcases (edge_of_step accepted).origin (Reachable.coherent reached).entryIds member with
      ⟨old, stored, step⟩ | ⟨env, body, document, _, same, _⟩
    · exact recordInvariant_step (holds old stored) step
    · rw [same]
      exact recordInvariant_created attempts _ _ _

/-! ## Attempts and settled entries -/

/-- The action is a claim of the entry. -/
def Action.claims (id : ObjectId) : Action → Bool
  | .claim _ entry => entry = id
  | _ => false

/-- A claim of an entry leaves no entry of that identifier as it was. -/
theorem Edge.claims_of_quiet {system next : System} {action : Action} {events : List Event}
    (edge : Edge cfg system action next) (grows : next.history = events ++ system.history)
    (quiet : ∀ event ∈ events, Undisturbed entry.id event) :
    action.claims entry.id = false := by
  cases edge with
  | claim phase room member oldest =>
      rename_i worker now held claimed
      have recorded : [Event.claimed worker claimed.id (claimed.attempts + 1)] = events :=
        List.append_cancel_right grows
      have undisturbed : Undisturbed entry.id (.claimed worker claimed.id (claimed.attempts + 1)) :=
        quiet _ (by rw [← recorded]; exact List.mem_singleton_self _)
      simpa [Action.claims, Undisturbed] using undisturbed
  | _ => rfl

/-- A step charges an attempt exactly when it claims the entry. -/
theorem EntryStep.attempts_eq {system next : System} {action : Action} {after : OutboxEntry}
    (edge : Edge cfg system action next) (change : EntryStep cfg system action next entry after) :
    after.attempts = entry.attempts + if action.claims entry.id then 1 else 0 := by
  cases change with
  | kept entry grows quiet => simp [edge.claims_of_quiet grows quiet]
  | claimed acts => simp [acts, Action.claims, claimUpdate]
  | finalised acts phase change recorded =>
      obtain ⟨times, publishedAt, rfl⟩ := acts
      obtain ⟨error, now, _, _, rfl⟩ := change
      simp [Action.claims]

/-- The entry of an identifier after a step, when one was stored before. -/
theorem Edge.entry_of_id {system next : System} {action : Action} {after : OutboxEntry}
    (edge : Edge cfg system action next) (coherent : Coherent system)
    (stored : entry ∈ system.store.outbox) (member : after ∈ next.store.outbox)
    (same : after.id = entry.id) : EntryStep cfg system action next entry after := by
  rcases edge.origin coherent.entryIds member with
    ⟨before, found, change⟩ | ⟨_, _, _, _, _, fresh⟩
  · rw [change.id_eq] at same
    rwa [coherent.entryIds.eq_of_key found stored same] at change
  · exact absurd (coherent.issuedEntries entry stored) (same ▸ fresh)

/-- A settled entry is found unchanged in every later state, or was sent and expired. -/
theorem Reachable.settled {system later : System} (reachable : Reachable cfg system)
    (reach : Reaches (System.step cfg) system later) (stored : entry ∈ system.store.outbox)
    (settled : entry.isOpen = false) :
    (entry ∈ later.store.outbox ∨ entry.status = .sent ∧ .expired entry ∈ later.history) ∧
      ∀ after ∈ later.store.outbox, after.id = entry.id → after = entry := by
  have kept : entry.id ∈ later.issued ∧
      (entry ∈ later.store.outbox ∨ entry.status = .sent ∧ .expired entry ∈ later.history) ∧
      ∀ after ∈ later.store.outbox, after.id = entry.id → after = entry := by
    have coherent := reachable.coherent
    refine reach.induction (motive := fun later => entry.id ∈ later.issued ∧
      (entry ∈ later.store.outbox ∨ entry.status = .sent ∧ .expired entry ∈ later.history) ∧
      ∀ after ∈ later.store.outbox, after.id = entry.id → after = entry) ?_ ?_
    · exact ⟨coherent.issuedEntries entry stored, Or.inl stored, fun after member same =>
        coherent.entryIds.eq_of_key member stored same⟩
    · rintro before action after reached ⟨issued, stays, only⟩ accepted
      have edge := edge_of_step accepted
      have coherent := (reachable.reaches reached).coherent
      refine ⟨edge.issued issued, ?_, ?_⟩
      · rcases stays with found | ⟨sent, expired⟩
        · rcases edge.entry coherent.entryIds found with ⟨changed, member, change⟩ | ⟨sent, acts⟩
          · rw [change.eq_of_closed settled] at member
            exact Or.inl member
          · refine Or.inr ⟨sent, ?_⟩
            cases edge with
            | expire member isSent =>
                rename_i gone
                have equal : gone = entry := coherent.entryIds.eq_of_key member found (by
                  simpa using acts)
                rw [equal]
                exact List.mem_cons_self ..
            | _ => cases acts
        · obtain ⟨events, grows⟩ := edge.grows
          exact Or.inr ⟨sent, by rw [grows]; exact List.mem_append_right _ expired⟩
      · intro candidate member same
        rcases edge.origin coherent.entryIds member with
          ⟨old, found, change⟩ | ⟨_, _, _, _, _, fresh⟩
        · rw [change.id_eq] at same
          have equal := only old found same
          subst equal
          exact change.eq_of_closed settled
        · exact absurd issued (same ▸ fresh)
  exact kept.2

/-- Every entry keeps its record invariant; an attempt is charged by every claim and by
nothing else; what was sent or given up is never changed again. -/
theorem outbox_records_well_formed {system : System} (attempts : 1 ≤ cfg.outboxMaxAttempts)
    (reachable : Reachable cfg system) :
    (∀ entry ∈ system.store.outbox, RecordInvariant cfg entry) ∧
      (∀ action next, system.step cfg action = some next →
        ∀ entry ∈ system.store.outbox, ∀ after ∈ next.store.outbox, after.id = entry.id →
          after.attempts = entry.attempts + if action.claims entry.id then 1 else 0) ∧
      ∀ later, Reaches (System.step cfg) system later →
        ∀ entry ∈ system.store.outbox, entry.status = .sent ∨ entry.status = .permanentFailure →
          (entry ∈ later.store.outbox ∨ entry.status = .sent ∧ .expired entry ∈ later.history) ∧
            ∀ after ∈ later.store.outbox, after.id = entry.id → after = entry := by
  refine ⟨reachable.records attempts, ?_, ?_⟩
  · intro action next accepted entry stored after member same
    have edge := edge_of_step accepted
    exact EntryStep.attempts_eq edge
      (edge.entry_of_id reachable.coherent stored member same)
  · intro later reach entry stored settled
    refine reachable.settled reach stored ?_
    rcases settled with sent | givenUp
    · simp [OutboxEntry.isOpen, sent]
    · simp [OutboxEntry.isOpen, givenUp]

/-- A run in which the one entry of a callback is claimed. -/
def Sample.firstClaim : List Action :=
  [ .callback (Sample.env 1) (Sample.body [("document", Sample.file Sample.fileA)]),
    .start "worker", .claim "worker" (Sample.objectId 101) ]

/-- In the sample run the claimed entry has been charged its first attempt. -/
theorem outbox_records_well_formed_sample :
    ∃ entry ∈ (System.after Sample.config Sample.firstClaim (by decide)).store.outbox,
      entry.status = .processing ∧ 1 ≤ entry.attempts ∧
        entry.attempts ≤ Sample.config.outboxMaxAttempts := by
  have claimed : ∃ entry ∈ (System.after Sample.config Sample.firstClaim (by decide)).store.outbox,
      entry.status = .processing := by decide
  obtain ⟨entry, stored, processing⟩ := claimed
  have record := (outbox_records_well_formed (by decide)
    (Reachable.after Sample.config Sample.firstClaim (by decide))).1 entry stored
  obtain ⟨charged, allowed, _⟩ := record.processing processing
  exact ⟨entry, stored, processing, charged, allowed⟩

end ObjectProcessor
