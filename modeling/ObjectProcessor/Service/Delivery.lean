import Mathlib.Data.List.MinMax
import ObjectProcessor.Service.Agreement

/-!
# A processable entry can be delivered

A worker that starts afresh can claim any entry that matches, run after run until
the older ones are claimed, and publish it first.  If the publisher accepts the
message and the transaction commits within the lease, the entry is sent.
-/

namespace ObjectProcessor

open Library

variable {cfg : Config}

/-- When an entry matches, one of the matching entries is an oldest one. -/
theorem exists_oldestProcessable {now : Time} {outbox : List OutboxEntry} {entry : OutboxEntry}
    (stored : entry ∈ outbox) (processable : isProcessable cfg now entry = true) :
    ∃ oldest ∈ outbox, isOldestProcessable cfg now outbox oldest = true := by
  have candidates : entry ∈ outbox.filter (isProcessable cfg now) :=
    List.mem_filter.mpr ⟨stored, processable⟩
  cases found : (outbox.filter (isProcessable cfg now)).argmin OutboxEntry.createdAt with
  | none =>
      rw [List.argmin_eq_none.mp found] at candidates
      cases candidates
  | some oldest =>
      obtain ⟨isStored, oldestProcessable⟩ := List.mem_filter.mp (List.argmin_mem found)
      refine ⟨oldest, isStored, ?_⟩
      simp only [isOldestProcessable, oldestProcessable, Bool.true_and, List.all_eq_true,
        Bool.or_eq_true, Bool.not_eq_true', decide_eq_true_eq]
      intro other otherStored
      cases otherProcessable : isProcessable cfg now other with
      | false => exact Or.inl rfl
      | true =>
          exact Or.inr (List.le_of_mem_argmin
            (List.mem_filter.mpr ⟨otherStored, otherProcessable⟩) found)

/-- Whatever a worker is doing, it can start a run at the current time. -/
theorem reach_start (cfg : Config) (system : System) (worker : WorkerId) :
    ∃ later, Reaches (System.step cfg) system later ∧ later.store = system.store ∧
      later.clock = system.clock ∧ later.run worker = .claiming system.clock [] := by
  have starts (idle : System) (isIdle : idle.run worker = .idle) :
      ∃ later, idle.step cfg (.start worker) = some later ∧ later.store = idle.store ∧
        later.clock = idle.clock ∧ later.run worker = .claiming idle.clock [] := by
    refine ⟨(idle.setRun worker (.claiming idle.clock [])).record [.runStarted worker], ?_, rfl,
      rfl, ?_⟩
    · simp only [System.step, System.start, isIdle]
    · simp [System.setRun, System.record]
  by_cases isIdle : system.run worker = .idle
  · obtain ⟨later, started, store, clock, phase⟩ := starts system isIdle
    exact ⟨later, Reaches.single started, store, clock, phase⟩
  · have gaveUp : system.step cfg (.abandon worker) = some (system.setRun worker .idle) := by
      cases busy : system.run worker with
      | idle => exact absurd busy isIdle
      | _ => simp only [System.step, System.abandon, busy]
    obtain ⟨later, started, store, clock, phase⟩ :=
      starts (system.setRun worker .idle) (by simp [System.setRun])
    exact ⟨later, (Reaches.single gaveUp).tail started, store, clock, phase⟩

/-- A worker with room in its run can claim an oldest matching entry. -/
theorem exists_claim {system : System} (coherent : Coherent system) {worker : WorkerId}
    {now : Time} {held : List OutboxEntry} (phase : system.run worker = .claiming now held)
    (room : held.length < cfg.outboxQueryLimit) {entry : OutboxEntry}
    (stored : entry ∈ system.store.outbox)
    (oldest : isOldestProcessable cfg now system.store.outbox entry = true) :
    ∃ next, system.step cfg (.claim worker entry.id) = some next ∧ next.clock = system.clock ∧
      next.run worker = .claiming now (held ++ [claimUpdate cfg worker now entry]) ∧
      next.store.outbox = updateMany (fun other => decide (other.id = entry.id))
        (claimUpdate cfg worker now) system.store.outbox := by
  have found : system.store.outbox.find? (fun other => decide (other.id = entry.id)) =
      some entry :=
    find?_eq_some_of_unique stored (by simp) fun other otherStored same =>
      coherent.entryIds.eq_of_key otherStored stored (by simpa using same)
  refine ⟨((system.setOutbox (updateMany (fun other => decide (other.id = entry.id))
    (claimUpdate cfg worker now) system.store.outbox)).setRun worker
      (.claiming now (held ++ [claimUpdate cfg worker now entry]))).record
        [.claimed worker entry.id (entry.attempts + 1)], ?_, rfl, ?_, rfl⟩
  · simp only [System.step, System.claim, phase, found]
    exact if_pos ⟨room, oldest⟩
  · simp [System.setRun, System.record]

/-- The entry a claim of another one leaves alone. -/
theorem mem_updateMany_claim {worker : WorkerId} {now : Time} {outbox : List OutboxEntry}
    {entry other : OutboxEntry} (stored : other ∈ outbox) (apart : other.id ≠ entry.id) :
    other ∈ updateMany (fun candidate => decide (candidate.id = entry.id))
      (claimUpdate cfg worker now) outbox :=
  mem_updateMany_of_unmatched stored (by simpa using apart)

/-- Every claim leaves fewer entries that match at its time. -/
theorem matchedCount_claim_lt (worker : WorkerId) {now : Time} {outbox : List OutboxEntry}
    {entry : OutboxEntry} (stored : entry ∈ outbox)
    (oldest : isOldestProcessable cfg now outbox entry = true) :
    matchedCount (isProcessable cfg now) (updateMany (fun other => decide (other.id = entry.id))
      (claimUpdate cfg worker now) outbox) < matchedCount (isProcessable cfg now) outbox := by
  rw [isOldestProcessable, Bool.and_eq_true] at oldest
  exact matchedCount_updateMany_lt (fun other _ => isProcessable_claimUpdate cfg worker now other)
    stored (by simp) oldest.1

/-- A worker that has just started can come to claim any matching entry first. -/
theorem reach_claim {system : System} (reachable : Reachable cfg system)
    (limit : 0 < cfg.outboxQueryLimit) {worker : WorkerId}
    (phase : system.run worker = .claiming system.clock []) {entry : OutboxEntry}
    (stored : entry ∈ system.store.outbox)
    (processable : isProcessable cfg system.clock entry = true) :
    ∃ later, Reaches (System.step cfg) system later ∧ later.clock = system.clock ∧
      later.run worker = .claiming system.clock [claimUpdate cfg worker system.clock entry] ∧
      claimUpdate cfg worker system.clock entry ∈ later.store.outbox := by
  -- By induction on the number of matching entries: older ones are claimed and given up.
  induction measure : matchedCount (isProcessable cfg system.clock) system.store.outbox
    using Nat.strong_induction_on generalizing system with
  | _ count ih =>
      subst measure
      obtain ⟨oldest, isStored, isOldest⟩ := exists_oldestProcessable stored processable
      obtain ⟨next, claims, clock, nextPhase, outbox⟩ :=
        exists_claim reachable.coherent phase limit isStored isOldest
      by_cases same : entry.id = oldest.id
      · have equal : entry = oldest :=
          reachable.coherent.entryIds.eq_of_key stored isStored same
        subst equal
        refine ⟨next, Reaches.single claims, clock, nextPhase, ?_⟩
        rw [outbox]
        exact mem_updateMany_of_matched stored (by simp)
      · obtain ⟨fresh, restarts, store, freshClock, freshPhase⟩ :=
          reach_start cfg next worker
        have sameClock : fresh.clock = system.clock := freshClock.trans clock
        rw [← freshClock] at freshPhase
        have fewer := matchedCount_claim_lt worker isStored isOldest
        rw [← outbox, ← store, ← sameClock] at fewer
        rw [← sameClock] at processable
        obtain ⟨later, reach, laterClock, laterPhase, claimed⟩ :=
          ih _ (sameClock ▸ fewer) ((reachable.step claims).reaches restarts) freshPhase
            (by rw [store, outbox]; exact mem_updateMany_claim stored same) processable rfl
        rw [sameClock] at laterClock laterPhase claimed
        exact ⟨later, ((Reaches.single claims).trans restarts).trans reach, laterClock, laterPhase,
          claimed⟩

/-- The claims of the loop end, and what was claimed is due for publication. -/
theorem reach_publishing {system : System} (reachable : Reachable cfg system) {worker : WorkerId}
    {now : Time} {first : OutboxEntry} {held : List OutboxEntry}
    (phase : system.run worker = .claiming now (first :: held))
    (claims : ∀ snapshot ∈ first :: held, snapshot ∈ system.store.outbox ∧
      isProcessable cfg now snapshot = false) :
    ∃ later rest, Reaches (System.step cfg) system later ∧ later.clock = system.clock ∧
      later.run worker = .publishing (first :: rest) ∧
      ∀ snapshot ∈ first :: rest, snapshot ∈ later.store.outbox := by
  -- By induction on the number of entries the loop still matches.
  induction measure : matchedCount (isProcessable cfg now) system.store.outbox
    using Nat.strong_induction_on generalizing system held with
  | _ count ih =>
      subst measure
      by_cases ended : cfg.outboxQueryLimit ≤ (first :: held).length ∨
          system.store.outbox.all (fun entry => !isProcessable cfg now entry) = true
      · have ends : system.step cfg (.claimsDone worker) =
            some (system.setRun worker (.publishing (first :: held))) := by
          simp only [System.step, System.claimsDone, phase, reduceCtorEq, ↓reduceIte]
          exact if_pos ended
        refine ⟨_, held, Reaches.single ends, rfl, by simp [System.setRun], ?_⟩
        intro snapshot member
        exact (claims snapshot member).1
      · rw [not_or, Nat.not_le, List.all_eq_true] at ended
        obtain ⟨room, remains⟩ := ended
        push Not at remains
        obtain ⟨entry, stored, matched⟩ := remains
        have processable : isProcessable cfg now entry = true := by simpa using matched
        obtain ⟨oldest, isStored, isOldest⟩ := exists_oldestProcessable stored processable
        obtain ⟨next, claimed, clock, nextPhase, outbox⟩ :=
          exists_claim reachable.coherent phase room isStored isOldest
        have fewer := matchedCount_claim_lt worker isStored isOldest
        have oldestProcessable : isProcessable cfg now oldest = true := by
          rw [isOldestProcessable, Bool.and_eq_true] at isOldest
          exact isOldest.1
        rw [← outbox] at fewer
        obtain ⟨later, rest, reach, laterClock, laterPhase, stays⟩ :=
          ih _ fewer (reachable.step claimed) nextPhase (by
            intro snapshot member
            rw [outbox]
            rcases List.mem_append.mp (List.cons_append ▸ member) with before | new
            · obtain ⟨snapshotStored, spent⟩ := claims snapshot before
              refine ⟨mem_updateMany_claim snapshotStored fun same => ?_, spent⟩
              rw [reachable.coherent.entryIds.eq_of_key snapshotStored isStored same,
                oldestProcessable] at spent
              cases spent
            · rw [List.mem_singleton.mp new]
              exact ⟨mem_updateMany_of_matched isStored (by simp),
                isProcessable_claimUpdate cfg worker now oldest⟩) rfl
        exact ⟨later, rest, (Reaches.single claimed).trans reach, laterClock.trans clock,
          laterPhase, stays⟩

theorem exists_publish (cfg : Config) {system : System} {worker : WorkerId}
    {pending : List OutboxEntry} (phase : system.run worker = .publishing pending)
    (answer : PublishAnswer) :
    ∃ next, system.step cfg (.publish worker answer) = some next ∧ next.store = system.store ∧
      next.clock = system.clock ∧
      next.run worker = .finalizing (pending.take batchSize)
        (publishDocumentUploadMessageBatch (pending.take batchSize) answer)
        (pending.drop batchSize) system.clock := by
  refine ⟨(system.setRun worker (.finalizing (pending.take batchSize)
    (publishDocumentUploadMessageBatch (pending.take batchSize) answer) (pending.drop batchSize)
      system.clock)).record [.published worker ((pending.take batchSize).map OutboxEntry.id)
        (publishDocumentUploadMessageBatch (pending.take batchSize) answer)], ?_, rfl, rfl, ?_⟩
  · simp only [System.step, System.publish, phase]
  · simp [System.setRun, System.record]

theorem exists_finalize (cfg : Config) {system : System} {worker : WorkerId}
    {batch rest : List OutboxEntry} {results : PublishResults} {since : Time}
    (phase : system.run worker = .finalizing batch results rest since) {times : List Time}
    {publishedAt : Time} (calls : times.length = results.successful.length + results.failed.length)
    (past : ∀ time ∈ publishedAt :: times, since ≤ time ∧ time ≤ system.clock) :
    ∃ next, system.step cfg (.finalize worker times publishedAt) = some next ∧
      next.store.outbox =
        (system.finalization cfg worker batch results times publishedAt).outbox := by
  let result := system.finalization cfg worker batch results times publishedAt
  refine ⟨(({ system with
    store := { system.store with outbox := result.outbox, metadata := result.metadata } }.setRun
      worker (.reporting result.finalizedFailed rest)).record
        (finalizationEvents worker result)), ?_, rfl⟩
  simp only [System.step, System.finalize, phase]
  exact if_pos ⟨calls, past⟩

/-- The publisher accepts the first message, and the transaction commits in time. -/
theorem reach_sent {system : System} (reachable : Reachable cfg system) {worker : WorkerId}
    {first : OutboxEntry} {rest : List OutboxEntry} {limit : Time}
    (phase : system.run worker = .publishing (first :: rest))
    (stored : ∀ snapshot ∈ first :: rest, snapshot ∈ system.store.outbox)
    (processing : first.status = .processing) (owned : first.claimedBy = some worker)
    (leased : first.claimedUntil = some limit) (unexpired : system.clock < limit) :
    ∃ later after, Reaches (System.step cfg) system later ∧ after ∈ later.store.outbox ∧
      after.id = first.id ∧ after.status = .sent := by
  have agreement := reachable.agreement.2
  have isStored := stored first (List.mem_cons_self ..)
  have named := getEntryId_of_truthy (agreement.truthyFiles first isStored)
  have picked : mapPublishResultsToEntries ((first :: rest).take batchSize)
      [.file first.fileId] = [first] := by
    have found : ((first :: rest).take batchSize).reverse.find?
        (fun entry => getEntryId entry = .file first.fileId) = some first := by
      refine find?_eq_some_of_unique ?_ (by simpa using named) ?_
      · exact List.mem_reverse.mpr (List.mem_cons_self ..)
      · intro other member same
        have held := List.mem_of_mem_take (List.mem_reverse.mp member)
        exact agreement.entryFiles.eq_of_key (stored other held) isStored
          (fileId_of_getEntryId (by simpa using same))
    simp [mapPublishResultsToEntries, found]
  obtain ⟨next, publishes, store, clock, nextPhase⟩ := exists_publish cfg phase
    (.answered { successful := [.file first.fileId], failed := [] })
  have past : ∀ time ∈ [system.clock, system.clock], system.clock ≤ time ∧ time ≤ next.clock := by
    simp [clock]
  obtain ⟨later, finalizes, outbox⟩ := exists_finalize cfg nextPhase rfl past
  have matched : finalizeFilter [first.id] worker system.clock first = true :=
    finalizeFilter_iff.mpr ⟨List.mem_singleton_self _, processing, owned, limit, leased, unexpired⟩
  refine ⟨later, finalizeUpdate cfg .succeeded none system.clock first,
    (Reaches.single publishes).tail finalizes, ?_, finalizeUpdate_id .., rfl⟩
  rw [outbox, System.finalization, publishDocumentUploadMessageBatch,
    finalizeBatch_of_picked _ _ picked, store]
  exact mem_updateMany_of_matched isStored matched

/-- Every open entry with an attempt left reaches its delivery in some continuation. -/
theorem Reachable.deliverable {system : System} (reachable : Reachable cfg system)
    (limit : 0 < cfg.outboxQueryLimit) (lease : 0 < cfg.outboxClaimLeaseMs)
    {entry : OutboxEntry} (stored : entry ∈ system.store.outbox) {now : Time}
    (later : system.clock ≤ now) (processable : isProcessable cfg now entry = true) :
    ∃ last after, Reaches (System.step cfg) system last ∧ after ∈ last.store.outbox ∧
      after.id = entry.id ∧ after.status = .sent := by
  have ticks : system.step cfg (.tick now) = some { system with clock := now } := if_pos later
  obtain ⟨started, starts, store, clock, phase⟩ :=
    reach_start cfg { system with clock := now } "worker"
  have reached := (reachable.step ticks).reaches starts
  have sameClock : now = started.clock := clock.symm
  subst sameClock
  obtain ⟨claiming, claims, claimClock, claimPhase, claimed⟩ :=
    reach_claim reached limit phase (by rwa [store]) processable
  obtain ⟨publishing, rest, ends, publishClock, publishPhase, held⟩ :=
    reach_publishing (reached.reaches claims) claimPhase (by
      intro snapshot member
      rw [List.mem_singleton.mp member]
      exact ⟨claimed, isProcessable_claimUpdate ..⟩)
  have unexpired : publishing.clock < started.clock + cfg.outboxClaimLeaseMs := by
    rw [publishClock, claimClock]
    exact Nat.lt_add_of_pos_right lease
  obtain ⟨last, after, sends, stays, same, sent⟩ :=
    reach_sent ((reached.reaches claims).reaches ends) publishPhase held rfl rfl rfl unexpired
  have reach := (((Reaches.single ticks).trans starts).trans claims).trans ends
  exact ⟨last, after, reach.trans sends, stays, same, sent⟩

end ObjectProcessor
