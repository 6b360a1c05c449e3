import ObjectProcessor.Outbox.Transaction
import ObjectProcessor.Service.Exclusivity

/-!
# What a worker knows of the entries it holds

A worker acts on snapshots rebuilt when it claimed the entries.  For as long as a
claim is held its snapshot is the stored entry itself, so the status the worker
derives for a failure is the one the pipeline stores.

One run can claim an entry twice: its first claim expires during the loop, another
worker takes the entry over and fails it.  Both claims then bear the same expired
lease, because the loop captured its time once.

A claim loop nobody interrupts is a run of claim steps.
-/

namespace ObjectProcessor

open Library

/-! ## An uninterrupted claim loop -/

/-- What a turn of the loop finds is an oldest eligible entry. -/
theorem isOldestProcessable_of_find {cfg : Config} {pick : LeastPick OutboxEntry.createdAt}
    {now : Time} {outbox : List OutboxEntry} {entry : OutboxEntry}
    (found : pick.find (isProcessable cfg now) outbox = some entry) :
    isOldestProcessable cfg now outbox entry = true := by
  rw [isOldestProcessable, pick.matched found, Bool.true_and, List.all_eq_true]
  intro other member
  cases processable : isProcessable cfg now other with
  | false => rfl
  | true => simpa using pick.least found other member processable

/-- A turn of the loop is a claim step. -/
theorem claim_step_of_find {cfg : Config} {pick : LeastPick OutboxEntry.createdAt}
    {system : System} (unique : UniqueBy OutboxEntry.id system.store.outbox) {worker : WorkerId}
    {now : Time} {held : List OutboxEntry} (phase : system.run worker = .claiming now held)
    (room : held.length < cfg.outboxQueryLimit) {entry : OutboxEntry}
    (found : pick.find (isProcessable cfg now) system.store.outbox = some entry) :
    ∃ next, system.step cfg (.claim worker entry.id) = some next ∧
      next.run worker = .claiming now (held ++ [claimUpdate cfg worker now entry]) ∧
      next.store.outbox = updateMany (fun other => decide (other.id = entry.id))
        (claimUpdate cfg worker now) system.store.outbox := by
  have stored : (system.store.outbox.find? fun other => other.id = entry.id) = some entry := by
    refine find?_eq_some_of_unique (pick.member found) (by simp) fun other member same => ?_
    exact unique.eq_of_key member (pick.member found) (of_decide_eq_true same)
  refine ⟨((system.setOutbox (updateMany (fun other => decide (other.id = entry.id))
    (claimUpdate cfg worker now) system.store.outbox)).setRun worker
      (.claiming now (held ++ [claimUpdate cfg worker now entry]))).record
        [.claimed worker entry.id (entry.attempts + 1)], ?_, Function.update_self .., rfl⟩
  simp only [System.step, System.claim, phase, stored]
  exact if_pos ⟨room, isOldestProcessable_of_find found⟩

/-- The loop of `claimProcessableOutboxEntries`, when nothing else happens meanwhile. -/
theorem reaches_claimTurns (cfg : Config) (picks : Nat → LeastPick OutboxEntry.createdAt)
    {worker : WorkerId} {now : Time} (remaining index : Nat) {system : System}
    {held : List OutboxEntry} (phase : system.run worker = .claiming now held)
    (room : held.length + remaining = cfg.outboxQueryLimit)
    (unique : UniqueBy OutboxEntry.id system.store.outbox) :
    ∃ last, Reaches (System.step cfg) system last ∧
      last.run worker = .claiming now
        (claimTurns cfg picks worker now remaining index system.store.outbox held).1 ∧
      last.store.outbox =
        (claimTurns cfg picks worker now remaining index system.store.outbox held).2 := by
  induction remaining generalizing index system held with
  | zero => exact ⟨system, .refl system, phase, rfl⟩
  | succ remaining ih =>
      rw [claimTurns, findOneAndUpdate]
      cases found : (picks index).find (isProcessable cfg now) system.store.outbox with
      | none => exact ⟨system, .refl system, phase, rfl⟩
      | some entry =>
          obtain ⟨next, accepted, claiming, outbox⟩ :=
            claim_step_of_find unique phase (by omega) found
          have uniqueAfter : UniqueBy OutboxEntry.id next.store.outbox := by
            rw [outbox]
            exact unique.updateMany fun _ => rfl
          obtain ⟨last, reach, ends, stored⟩ :=
            ih (index + 1) claiming (by simp; omega) uniqueAfter
          rw [outbox] at ends stored
          exact ⟨last, (Reaches.single accepted).trans reach, ends, stored⟩

/-- A whole claim run, from its start. -/
theorem reaches_claimProcessableOutboxEntries (cfg : Config)
    (picks : Nat → LeastPick OutboxEntry.createdAt) {worker : WorkerId} {system : System}
    (unique : UniqueBy OutboxEntry.id system.store.outbox)
    (idle : system.run worker = .idle) :
    ∃ last, Reaches (System.step cfg) system last ∧
      last.run worker = .claiming system.clock
        (claimProcessableOutboxEntries cfg picks worker system.clock system.store.outbox).1 ∧
      last.store.outbox =
        (claimProcessableOutboxEntries cfg picks worker system.clock system.store.outbox).2 := by
  have started : system.step cfg (.start worker) =
      some ((system.setRun worker (.claiming system.clock [])).record [.runStarted worker]) := by
    simp only [System.step, System.start, idle]
  have claiming : ((system.setRun worker (.claiming system.clock [])).record
      [.runStarted worker]).run worker = .claiming system.clock [] := Function.update_self ..
  obtain ⟨last, reach, ends, stored⟩ :=
    reaches_claimTurns cfg picks cfg.outboxQueryLimit 0 claiming (by simp) unique
  exact ⟨last, (Reaches.single started).trans reach, ends, stored⟩

/-! ## Snapshots -/

/-- The failures of a batch `handleFailedEntries` counts and logs as final. -/
def terminalEntries (finalizedFailed : List OutboxEntry) : List OutboxEntry :=
  finalizedFailed.filter fun entry => entry.status = .permanentFailure

/-- Those it counts and logs as to be retried. -/
def retryableEntries (finalizedFailed : List OutboxEntry) : List OutboxEntry :=
  finalizedFailed.filter fun entry => entry.status ≠ .permanentFailure

/-- The lease of the snapshot has passed, too late for a finalisation under way. -/
def Lapsed (system : System) (worker : WorkerId) (snapshot : OutboxEntry) : Prop :=
  ∃ limit, snapshot.claimedUntil = some limit ∧ limit < system.clock ∧
    ∀ batch results rest since,
      system.run worker = .finalizing batch results rest since → limit < since

/-- A finalisation under way was under way before, or its answer has just arrived. -/
theorem Edge.answeredAt {cfg : Config} {system next : System} {action : Action}
    (edge : Edge cfg system action next) {worker : WorkerId} {batch rest : List OutboxEntry}
    {results : PublishResults} {since : Time}
    (phase : next.run worker = .finalizing batch results rest since) :
    system.run worker = .finalizing batch results rest since ∨ since = system.clock := by
  obtain ⟨events, _, moves⟩ := edge.runStep worker
  rw [phase] at moves
  generalize system.run worker = before at moves ⊢
  generalize reached : RunPhase.finalizing batch results rest since = after at moves ⊢
  cases moves with
  | other => exact Or.inl rfl
  | publish =>
      cases reached
      exact Or.inr rfl
  | claimsDone => split at reached <;> cases reached
  | report => split at reached <;> cases reached
  | _ => cases reached

/-- A lease that has passed stays so. -/
theorem Lapsed.step {cfg : Config} {system next : System} {action : Action} {worker : WorkerId}
    {snapshot : OutboxEntry} (lapsed : Lapsed system worker snapshot)
    (edge : Edge cfg system action next) : Lapsed next worker snapshot := by
  obtain ⟨limit, leased, passed, before⟩ := lapsed
  refine ⟨limit, leased, Nat.lt_of_lt_of_le passed edge.clock, ?_⟩
  intro batch results rest since phase
  rcases edge.answeredAt phase with earlier | now
  · exact before batch results rest since earlier
  · exact now ▸ passed

/-- No finalisation of a snapshot whose lease has passed matches. -/
theorem Lapsed.not_match {system : System} {worker : WorkerId} {snapshot entry : OutboxEntry}
    (lapsed : Lapsed system worker snapshot) (same : entry.claimedUntil = snapshot.claimedUntil)
    {ids : List ObjectId} {time : Time} (matched : finalizeFilter ids worker time entry = true) :
    time < system.clock ∧ ∀ batch results rest since,
      system.run worker = .finalizing batch results rest since → time < since := by
  obtain ⟨limit, leased, passed, before⟩ := lapsed
  obtain ⟨_, _, _, until', isUntil, inTime⟩ := finalizeFilter_iff.mp matched
  have equal : until' = limit := by
    rw [same, leased] at isUntil
    exact (Option.some.inj isUntil).symm
  subst equal
  exact ⟨Nat.lt_trans inTime passed, fun batch results rest since phase =>
    Nat.lt_trans inTime (before batch results rest since phase)⟩

/-- What the snapshots of every worker have to do with the stored entries. -/
structure SnapshotsKept (cfg : Config) (system : System) : Prop where
  stamped : ∀ worker now claimed, system.run worker = .claiming now claimed →
    ∀ snapshot ∈ claimed, snapshot.status = .processing ∧ snapshot.claimedBy = some worker ∧
      snapshot.claimedUntil = some (now + cfg.outboxClaimLeaseMs)
  inPlace : ∀ worker now claimed, system.run worker = .claiming now claimed →
    ∀ snapshot ∈ claimed, snapshot ∈ system.store.outbox ∨ Lapsed system worker snapshot
  agree : ∀ worker, ∀ snapshot ∈ (system.run worker).held, ∀ entry ∈ system.store.outbox,
    entry.id = snapshot.id → entry.status = .processing → entry.claimedBy = some worker →
      entry = snapshot ∨
        (Lapsed system worker snapshot ∧ entry.claimedUntil = snapshot.claimedUntil)

/-- What a claim loop has claimed after a step it had claimed before, or claims now. -/
theorem Edge.claiming {cfg : Config} {system next : System} {action : Action}
    (edge : Edge cfg system action next) {worker : WorkerId} {now : Time}
    {claimed : List OutboxEntry} (phase : next.run worker = .claiming now claimed)
    {snapshot : OutboxEntry} (member : snapshot ∈ claimed) :
    ∃ earlier, system.run worker = .claiming now earlier ∧
      (snapshot ∈ earlier ∨ ∃ entry ∈ system.store.outbox, action = .claim worker entry.id ∧
        snapshot = claimUpdate cfg worker now entry) := by
  obtain ⟨events, grows, moves⟩ := edge.runStep worker
  rw [phase] at moves
  generalize system.run worker = before at moves ⊢
  generalize reached : RunPhase.claiming now claimed = after at moves ⊢
  cases moves with
  | other => exact ⟨claimed, reached.symm, Or.inl member⟩
  | start =>
      cases reached
      cases member
  | claim stored processable =>
      rename_i entry
      cases reached
      rcases List.mem_append.mp member with old | new
      · exact ⟨_, rfl, Or.inl old⟩
      · exact ⟨_, rfl, Or.inr ⟨entry, stored, rfl, List.mem_singleton.mp new⟩⟩
  | claimsDone => split at reached <;> cases reached
  | report => split at reached <;> cases reached
  | _ => cases reached

/-- The claimed entry is in the store under its claim. -/
theorem Edge.claimed_stored {cfg : Config} {system next : System} {worker : WorkerId}
    {entry : OutboxEntry} {now : Time} {held : List OutboxEntry}
    (edge : Edge cfg system (.claim worker entry.id) next) (coherent : Coherent system)
    (phase : system.run worker = .claiming now held) (stored : entry ∈ system.store.outbox) :
    claimUpdate cfg worker now entry ∈ next.store.outbox := by
  generalize acts : Action.claim worker entry.id = action at edge
  cases edge with
  | claim reading room member oldest =>
      rename_i actor captured claimed found
      obtain ⟨rfl, sameId⟩ := Action.claim.inj acts
      have equal : entry = found := coherent.entryIds.eq_of_key stored member sameId
      subst equal
      rw [reading] at phase
      cases phase
      exact mem_updateMany_of_matched stored (by simp)
  | _ => cases acts

/-! ## What a step keeps -/

section Step

variable {cfg : Config} {system next : System} {action : Action}

/-- A claimed snapshot stays in place until another worker may take the entry over. -/
theorem inPlace_step (coherent : Coherent system) (kept : SnapshotsKept cfg system)
    (edge : Edge cfg system action next) {worker : WorkerId} {now : Time}
    {claimed : List OutboxEntry} (phase : next.run worker = .claiming now claimed)
    {snapshot : OutboxEntry} (member : snapshot ∈ claimed) :
    snapshot ∈ next.store.outbox ∨ Lapsed next worker snapshot := by
  obtain ⟨earlier, before, old | ⟨entry, stored, rfl, rfl⟩⟩ := edge.claiming phase member
  · obtain ⟨processing, owned, leased⟩ := kept.stamped worker now earlier before snapshot old
    rcases kept.inPlace worker now earlier before snapshot old with stored | lapsed
    · rcases edge.entry coherent.entryIds stored with ⟨after, stays, change⟩ | ⟨sent, _⟩
      · cases change with
        | kept => exact Or.inl stays
        | claimed acts taking processable recorded =>
            rename_i other reading held
            right
            have past := coherent.readings other reading held taking
            obtain ⟨limit, same, expired⟩ := expired_of_isProcessable processing processable
            refine ⟨limit, same, Nat.lt_of_lt_of_le expired (Nat.le_trans past edge.clock), ?_⟩
            intro batch results rest since finalizing
            rw [phase] at finalizing
            cases finalizing
        | finalised acts finalizing change recorded =>
            -- Only its owner finalises a claim, and the owner is still claiming.
            have same := Option.some.inj (change.owned.symm.trans owned)
            subst same
            rw [before] at finalizing
            cases finalizing
      · rw [processing] at sent
        cases sent
    · exact Or.inr (lapsed.step edge)
  · exact Or.inl (edge.claimed_stored coherent before stored)

/-- A run that claims an entry once more, at the time it captured for its first claim, has lost
the first one to another worker. -/
theorem lapsed_of_reclaimed (coherent : Coherent system) (kept : SnapshotsKept cfg system)
    {worker : WorkerId} {now : Time} {claimed : List OutboxEntry}
    (phase : system.run worker = .claiming now claimed) {snapshot entry : OutboxEntry}
    (held : snapshot ∈ claimed) (stored : entry ∈ system.store.outbox)
    (same : entry.id = snapshot.id) (processable : isProcessable cfg now entry = true) :
    Lapsed system worker snapshot := by
  obtain ⟨processing, _, leased⟩ := kept.stamped worker now claimed phase snapshot held
  rcases kept.inPlace worker now claimed phase snapshot held with inPlace | lapsed
  · have equal : entry = snapshot := coherent.entryIds.eq_of_key stored inPlace same
    rw [equal] at processable
    obtain ⟨limit, isLimit, expired⟩ := expired_of_isProcessable processing processable
    cases leased.symm.trans isLimit
    exact absurd expired (Nat.not_lt.mpr (Nat.le_add_right ..))
  · exact lapsed

/-- A stored entry under a claim of the worker is the snapshot the worker holds, or the lease
of both has passed. -/
theorem agree_step (coherent : Coherent system) (kept : SnapshotsKept cfg system)
    (edge : Edge cfg system action next) {worker : WorkerId} {snapshot after : OutboxEntry}
    (holds : snapshot ∈ (next.run worker).held) (stored : after ∈ next.store.outbox)
    (same : after.id = snapshot.id) (processing : after.status = .processing)
    (owned : after.claimedBy = some worker) :
    after = snapshot ∨
      (Lapsed next worker snapshot ∧ after.claimedUntil = snapshot.claimedUntil) := by
  rcases edge.origin coherent.entryIds stored with
    ⟨entry, member, change⟩ | ⟨env, body, document, _, fresh, _⟩
  · cases change with
    | kept _ recorded quiet =>
        rename_i events
        rcases edge.held holds with ⟨before, _⟩ | ⟨now, held, claimed, _, _, _, _, rfl, grows⟩
        · rcases kept.agree worker snapshot before after member same processing owned with
            equal | ⟨lapsed, lease⟩
          · exact Or.inl equal
          · exact Or.inr ⟨lapsed.step edge, lease⟩
        · -- The step has claimed this entry, so it has not kept it.
          have claims : events = [.claimed worker claimed.id (claimed.attempts + 1)] :=
            List.append_cancel_right (recorded.symm.trans grows)
          rw [claims] at quiet
          exact absurd same.symm (quiet _ (List.mem_singleton_self _))
    | claimed acts phase processable recorded =>
        rename_i taker now claimed
        have isTaker : taker = worker := Option.some.inj owned
        subst isTaker
        rcases edge.held holds with ⟨before, _⟩ | ⟨reading, held, found, takes, again, isFound, _,
          rfl, _⟩
        · have old : snapshot ∈ claimed := by rwa [phase] at before
          obtain ⟨_, _, leased⟩ := kept.stamped taker now claimed phase snapshot old
          have lapsed := lapsed_of_reclaimed coherent kept phase old member same processable
          exact Or.inr ⟨lapsed.step edge, leased.symm⟩
        · have equal : entry = found := coherent.entryIds.eq_of_key member isFound same
          subst equal
          rw [phase] at again
          cases again
          exact Or.inl rfl
    | finalised acts phase change recorded => exact absurd processing change.not_processing
  · rw [fresh] at processing
    cases processing

theorem snapshotsKept_step (coherent : Coherent system) (kept : SnapshotsKept cfg system)
    (edge : Edge cfg system action next) : SnapshotsKept cfg next where
  stamped := by
    intro worker now claimed phase snapshot member
    obtain ⟨earlier, before, old | ⟨entry, _, _, rfl⟩⟩ := edge.claiming phase member
    · exact kept.stamped worker now earlier before snapshot old
    · exact ⟨rfl, rfl, rfl⟩
  inPlace := fun _ _ _ phase _ member => inPlace_step coherent kept edge phase member
  agree := fun _ _ holds _ stored same processing owned =>
    agree_step coherent kept edge holds stored same processing owned

end Step

theorem Reachable.snapshotsKept {cfg : Config} {system : System}
    (reachable : Reachable cfg system) : SnapshotsKept cfg system := by
  refine reachable.induction ?_ ?_
  · exact ⟨by simp [System.initial], by simp [System.initial],
      by simp [System.initial, RunPhase.held]⟩
  · intro before action after reached kept accepted
    exact snapshotsKept_step (Reachable.coherent reached) kept (edge_of_step accepted)

/-! ## What the worker derives -/

/-- While a claim is held, its snapshot is the stored entry. -/
theorem SnapshotsKept.eq_of_claim_held {cfg : Config} {system : System}
    (kept : SnapshotsKept cfg system) {worker : WorkerId} {snapshot entry : OutboxEntry}
    (holds : snapshot ∈ (system.run worker).held) (stored : entry ∈ system.store.outbox)
    {time : Time} (matched : finalizeFilter [snapshot.id] worker time entry = true)
    (current : system.clock ≤ time ∨ ∃ batch results rest since,
      system.run worker = .finalizing batch results rest since ∧ since ≤ time) :
    entry = snapshot := by
  obtain ⟨named, processing, owned, _⟩ := finalizeFilter_iff.mp matched
  rcases kept.agree worker snapshot holds entry stored (List.mem_singleton.mp named) processing
    owned with equal | ⟨lapsed, sameLease⟩
  · exact equal
  · obtain ⟨early, earlier⟩ := lapsed.not_match sameLease matched
    rcases current with now | ⟨batch, results, rest, since, phase, answered⟩
    · exact absurd early (Nat.not_lt.mpr now)
    · exact absurd (earlier batch results rest since phase) (Nat.not_lt.mpr answered)

/-- `resolveFailedStatus` mirrors the pipeline. -/
theorem resolveFailedStatus_eq (cfg : Config) (error : Option PublishError) (now : Time)
    (entry : OutboxEntry) : (finalizeUpdate cfg .failed error now entry).status =
      resolveFailedStatus entry.attempts cfg.outboxMaxAttempts := rfl

theorem resolveFailedStatus_cases (attempts maxAttempts : Nat) :
    resolveFailedStatus attempts maxAttempts = .pending ∨
      resolveFailedStatus attempts maxAttempts = .permanentFailure := by
  unfold resolveFailedStatus
  split
  · exact Or.inr rfl
  · exact Or.inl rfl

/-- What the worker reports of a committed finalisation is what the finalisation has stored. -/
structure FailuresAgree (cfg : Config) (system next : System) (failed : List OutboxEntry) : Prop
    where
  labelled : ∀ entry ∈ failed, ∃ after ∈ next.store.outbox,
    after.id = entry.id ∧ after.status = entry.status ∧ after.attempts = entry.attempts ∧
      getEntryId after = getEntryId entry
  retryable : ∀ entry ∈ system.store.outbox, ∀ after ∈ next.store.outbox, after.id = entry.id →
    (entry.id ∈ (retryableEntries failed).map OutboxEntry.id ↔
      after ≠ entry ∧ after.status = .pending)
  terminal : ∀ entry ∈ system.store.outbox, ∀ after ∈ next.store.outbox, after.id = entry.id →
    (entry.id ∈ (terminalEntries failed).map OutboxEntry.id ↔
      after ≠ entry ∧ after.status = .permanentFailure)

section Finalize

variable {cfg : Config} {system next : System} {worker : WorkerId} {batch rest : List OutboxEntry}
  {results : PublishResults} {since : Time} {times : List Time} {publishedAt : Time}

/-- A failed entry is labelled as it is stored. -/
theorem labelled_as_stored (kept : SnapshotsKept cfg system)
    (phase : system.run worker = .finalizing batch results rest since)
    (past : ∀ time ∈ times, since ≤ time) {fate : OutboxEntry → OutboxEntry}
    (spec : BatchSpec cfg worker batch system.store.outbox
      (system.finalization cfg worker batch results times publishedAt) fate)
    {labelled : OutboxEntry}
    (member : labelled ∈
      (system.finalization cfg worker batch results times publishedAt).finalizedFailed) :
    ∃ entry ∈ system.store.outbox, entry.id = labelled.id ∧
      Finalised cfg worker .failed entry (fate entry) ∧ (fate entry).status = labelled.status ∧
      (fate entry).attempts = labelled.attempts ∧
        getEntryId (fate entry) = getEntryId labelled := by
  obtain ⟨⟨entry, stored, same⟩, snapshot, inBatch, rfl⟩ := spec.failed labelled member
  have sameId : entry.id = snapshot.id := same
  refine ⟨entry, stored, same, ?_⟩
  have listed : entry.id ∈ (system.finalization cfg worker batch results times
      publishedAt).finalizedFailed.map OutboxEntry.id := same ▸ List.mem_map_of_mem member
  rcases spec.each entry stored with ⟨_, _, absent⟩ | ⟨outcome, change, _, isFailed⟩
  · exact absurd listed absent
  · obtain rfl := isFailed.mp listed
    obtain ⟨_, _, time, inTimes, matched, becomes⟩ := exists_failed_call spec stored change
    -- The call found the claim valid, so the snapshot is the entry itself.
    have valid : finalizeFilter [snapshot.id] worker time entry = true :=
      finalizeFilter_iff.mpr
        ⟨List.mem_singleton.mpr sameId, (finalizeFilter_iff.mp matched).2⟩
    have equal : entry = snapshot :=
      kept.eq_of_claim_held (mem_held_of_finalizing phase inBatch) stored valid
        (Or.inr ⟨batch, results, rest, since, phase, past time inTimes⟩)
    refine ⟨change, ?_, ?_, ?_⟩
    · rw [becomes, resolveFailedStatus_eq, equal]
    · rw [becomes, finalizeUpdate_attempts, equal]
    · rw [becomes, equal]
      rfl

/-- The failures labelled with a status are the entries the finalisation has given it. -/
theorem listed_iff_stored (coherent : Coherent system) (kept : SnapshotsKept cfg system)
    (phase : system.run worker = .finalizing batch results rest since)
    (past : ∀ time ∈ times, since ≤ time) {fate : OutboxEntry → OutboxEntry}
    (spec : BatchSpec cfg worker batch system.store.outbox
      (system.finalization cfg worker batch results times publishedAt) fate)
    {status : OutboxStatus} (unsent : status ≠ .sent) {entry : OutboxEntry}
    (stored : entry ∈ system.store.outbox) :
    entry.id ∈ ((system.finalization cfg worker batch results times
        publishedAt).finalizedFailed.filter fun labelled => labelled.status = status).map
          OutboxEntry.id ↔
      fate entry ≠ entry ∧ (fate entry).status = status := by
  constructor
  · intro listed
    obtain ⟨labelled, member, same⟩ := List.mem_map.mp listed
    obtain ⟨isFailed, isStatus⟩ := List.mem_filter.mp member
    obtain ⟨found, isFound, sameId, change, agrees, _⟩ :=
      labelled_as_stored kept phase past spec isFailed
    have equal : found = entry :=
      coherent.entryIds.eq_of_key isFound stored (sameId.trans same)
    subst equal
    refine ⟨fun unchanged => ?_, agrees.trans (of_decide_eq_true isStatus)⟩
    exact change.not_processing (unchanged.symm ▸ change.processing)
  · rintro ⟨changed, isStatus⟩
    rcases spec.each entry stored with ⟨unchanged, _⟩ | ⟨outcome, change, _, isFailed⟩
    · exact absurd unchanged changed
    · have failed : outcome = .failed := by
        cases outcome with
        | succeeded => exact absurd (isStatus.symm.trans (change.sent_iff.mpr rfl)) unsent
        | failed => rfl
      obtain ⟨labelled, member, same⟩ := List.mem_map.mp (isFailed.mpr failed)
      obtain ⟨found, isFound, sameId, _, agrees, _⟩ :=
        labelled_as_stored kept phase past spec member
      have equal : found = entry :=
        coherent.entryIds.eq_of_key isFound stored (sameId.trans same)
      subst equal
      refine List.mem_map.mpr ⟨labelled, List.mem_filter.mpr ⟨member, ?_⟩, same⟩
      exact decide_eq_true (agrees.symm.trans isStatus)

/-- A failure that is not final is to be retried. -/
theorem retryableEntries_eq {outbox : List OutboxEntry} {result : BatchFinalization}
    {fate : OutboxEntry → OutboxEntry} (spec : BatchSpec cfg worker batch outbox result fate) :
    retryableEntries result.finalizedFailed =
      result.finalizedFailed.filter fun entry => entry.status = .pending := by
  refine List.filter_congr fun labelled member => ?_
  obtain ⟨_, snapshot, _, rfl⟩ := spec.failed labelled member
  rcases resolveFailedStatus_cases snapshot.attempts cfg.outboxMaxAttempts with pending | final
  · simp [pending]
  · simp [final]

theorem failuresAgree_of_finalize (reachable : Reachable cfg system)
    (phase : system.run worker = .finalizing batch results rest since)
    (accepted : system.step cfg (.finalize worker times publishedAt) = some next) :
    ∃ failed, next.run worker = .reporting failed rest ∧ FailuresAgree cfg system next failed := by
  have coherent := reachable.coherent
  have kept := reachable.snapshotsKept
  cases edge_of_step accepted with
  | finalize reading readings commits =>
      rename_i result
      rw [phase] at reading
      cases reading
      obtain ⟨fate, spec⟩ := finalization_spec coherent.entryIds commits
      subst commits
      have past : ∀ time ∈ times, since ≤ time := fun time member =>
        (readings time (List.mem_cons_of_mem _ member)).1
      have becomes {entry after : OutboxEntry} (stored : entry ∈ system.store.outbox)
          (member : after ∈ (system.finalization cfg worker batch results times
            publishedAt).outbox) (same : after.id = entry.id) : after = fate entry := by
        rw [spec.outbox_eq] at member
        obtain ⟨before, isBefore, rfl⟩ := List.mem_map.mp member
        have sameId : (fate before).id = before.id := by
          rcases spec.each before isBefore with ⟨unchanged, _⟩ | ⟨_, change, _⟩
          · rw [unchanged]
          · exact change.id_eq
        rw [coherent.entryIds.eq_of_key isBefore stored (sameId.symm.trans same)]
      refine ⟨_, Function.update_self .., ?_, ?_, ?_⟩
      · intro labelled member
        obtain ⟨entry, stored, same, change, agrees⟩ :=
          labelled_as_stored kept phase past spec member
        refine ⟨fate entry, ?_, change.id_eq.trans same, agrees⟩
        show fate entry ∈ (system.finalization cfg worker batch results times publishedAt).outbox
        rw [spec.outbox_eq]
        exact List.mem_map_of_mem stored
      · intro entry stored after member same
        rw [becomes stored member same, retryableEntries_eq spec]
        exact listed_iff_stored coherent kept phase past spec (by simp) stored
      · intro entry stored after member same
        rw [becomes stored member same, terminalEntries]
        exact listed_iff_stored coherent kept phase past spec (by simp) stored

end Finalize

/-- The worker's view of a failed entry is the database's. -/
theorem worker_view_agrees_with_store {cfg : Config} {system : System}
    (reachable : Reachable cfg system) (worker : WorkerId) :
    (∀ snapshot ∈ (system.run worker).held, ∀ entry ∈ system.store.outbox,
        finalizeFilter [snapshot.id] worker system.clock entry = true → entry = snapshot) ∧
      ∀ batch results rest since, system.run worker = .finalizing batch results rest since →
        (∀ snapshot ∈ batch, ∀ entry ∈ system.store.outbox, ∀ time error, since ≤ time →
          finalizeFilter [snapshot.id] worker time entry = true →
            resolveFailedStatus snapshot.attempts cfg.outboxMaxAttempts =
              (finalizeUpdate cfg .failed error time entry).status) ∧
        ∀ times publishedAt next,
          system.step cfg (.finalize worker times publishedAt) = some next →
            ∃ failed, next.run worker = .reporting failed rest ∧
              FailuresAgree cfg system next failed := by
  have kept := reachable.snapshotsKept
  refine ⟨?_, fun batch results rest since phase => ⟨?_, ?_⟩⟩
  · intro snapshot holds entry stored matched
    exact kept.eq_of_claim_held holds stored matched (Or.inl (Nat.le_refl _))
  · intro snapshot inBatch entry stored time error answered matched
    have equal : entry = snapshot :=
      kept.eq_of_claim_held (mem_held_of_finalizing phase inBatch) stored matched
        (Or.inr ⟨batch, results, rest, since, phase, answered⟩)
    rw [resolveFailedStatus_eq, equal]
  · intro times publishedAt next accepted
    exact failuresAgree_of_finalize reachable phase accepted

/-- A run in which a second worker takes an entry over and its request fails. -/
def Sample.takenOver : List Action :=
  [ .callback (Sample.env 1) (Sample.body [("document", Sample.file Sample.fileA)]),
    .start "slow", .claim "slow" (Sample.objectId 101), .tick 300001,
    .start "other", .claim "other" (Sample.objectId 101), .claimsDone "other",
    .publish "other" (.threw none none) ]

/-- The second worker reports the failure of the second attempt as it is stored. -/
theorem worker_view_agrees_with_store_sample :
    ∃ next failed,
      (System.after Sample.config Sample.takenOver (by decide)).step Sample.config
          (.finalize "other" [300001] 300001) = some next ∧
        next.store.outbox.map (fun entry => (entry.status, entry.attempts)) = [(.pending, 2)] ∧
        next.run "other" = .reporting failed [] ∧
        FailuresAgree Sample.config (System.after Sample.config Sample.takenOver (by decide)) next
          failed := by
  have phase : ∃ batch results since,
      (System.after Sample.config Sample.takenOver (by decide)).run "other" =
        .finalizing batch results [] since := ⟨_, _, _, rfl⟩
  obtain ⟨batch, results, since, finalizing⟩ := phase
  have commits : ((System.after Sample.config Sample.takenOver (by decide)).step Sample.config
      (.finalize "other" [300001] 300001)).any (fun next => decide
        (next.store.outbox.map (fun entry => (entry.status, entry.attempts)) =
          [(OutboxStatus.pending, 2)])) = true := by decide
  obtain ⟨next, accepted, stored⟩ := (Option.any_eq_true _ _).mp commits
  obtain ⟨failed, reports, agrees⟩ := ((worker_view_agrees_with_store
    (Reachable.after Sample.config Sample.takenOver (by decide)) "other").2 batch results []
      since finalizing).2 _ _ next accepted
  exact ⟨next, failed, accepted, of_decide_eq_true stored, reports, agrees⟩

end ObjectProcessor
