import ObjectProcessor.Library.Counting
import ObjectProcessor.Service.PollRefinement

/-!
# Working off a backlog

A poll in which the publisher accepts every message and nothing throws sends what it has
claimed.  Every such poll takes as many entries as it may, or all that are eligible, so a
backlog is worked off in as many polls as its size asks for.
-/

namespace ObjectProcessor

open Library

variable {cfg : Config} {worker : WorkerId}

/-- Every message is accepted, nothing throws, and the transactions are within the lease. -/
structure Healthy (cfg : Config) (env : PollEnv) : Prop where
  starts : env.sessionStarts = true
  claims : env.claimFails = none
  accepts : ∀ index batch, (env.batches index).answer batch =
    .answered { successful := batch.map getEntryId, failed := [] }
  commits : ∀ index, (env.batches index).transactionFails = false
  inTime : ∀ index call, (env.batches index).callTime call < env.now + cfg.outboxClaimLeaseMs

/-! ## A batch the publisher accepts -/

/-- An entry under an unexpired claim of the worker, until the given time. -/
structure ClaimedUntil (worker : WorkerId) (limit : Time) (entry : OutboxEntry) : Prop where
  processing : entry.status = .processing
  owned : entry.claimedBy = some worker
  leased : entry.claimedUntil = some limit

theorem mapPublishResultsToEntries_all {batch : List OutboxEntry}
    (named : UniqueBy getEntryId batch) {snapshot : OutboxEntry} :
    snapshot ∈ mapPublishResultsToEntries batch (batch.map getEntryId) ↔ snapshot ∈ batch := by
  constructor
  · exact fun member => (mem_mapPublishResultsToEntries member).1
  · intro member
    refine List.mem_filterMap.mpr ⟨_, List.mem_map_of_mem member, ?_⟩
    refine find?_eq_some_of_unique (List.mem_reverse.mpr member) (by simp) ?_
    intro other found same
    exact named.eq_of_key (List.mem_reverse.mp found) member (of_decide_eq_true same)

/-- The taken entries are sent, and the rest of the outbox is as before. -/
structure Sends (taken before after : List OutboxEntry) (fate : OutboxEntry → OutboxEntry) :
    Prop where
  outbox : after = before.map fate
  named : ∀ entry ∈ before, (fate entry).id = entry.id
  sent : ∀ entry ∈ before, entry.id ∈ taken.map OutboxEntry.id → (fate entry).status = .sent
  kept : ∀ entry ∈ before, entry.id ∉ taken.map OutboxEntry.id → fate entry = entry

theorem Sends.refl (outbox : List OutboxEntry) : Sends [] outbox outbox id :=
  ⟨by simp, fun _ _ => rfl, by simp, fun _ _ _ => rfl⟩

theorem Sends.trans {first second before middle after : List OutboxEntry}
    {fate later : OutboxEntry → OutboxEntry} (sends : Sends first before middle fate)
    (sendsLater : Sends second middle after later) :
    Sends (first ++ second) before after (later ∘ fate) := by
  have between {entry : OutboxEntry} (member : entry ∈ before) : fate entry ∈ middle :=
    sends.outbox ▸ List.mem_map_of_mem member
  constructor
  case outbox => rw [sendsLater.outbox, sends.outbox, List.map_map]
  case named =>
    intro entry member
    exact (sendsLater.named _ (between member)).trans (sends.named entry member)
  case sent =>
    intro entry member taken
    by_cases again : entry.id ∈ second.map OutboxEntry.id
    · exact sendsLater.sent _ (between member) ((sends.named entry member).symm ▸ again)
    · have early : entry.id ∈ first.map OutboxEntry.id := by
        rw [List.map_append, List.mem_append] at taken
        exact taken.resolve_right again
      rw [Function.comp_apply,
        sendsLater.kept _ (between member) ((sends.named entry member).symm ▸ again)]
      exact sends.sent entry member early
  case kept =>
    intro entry member untaken
    rw [List.map_append, List.mem_append, not_or] at untaken
    have same := sends.kept entry member untaken.1
    have stays := sendsLater.kept _ (between member)
    rw [same] at stays
    exact (congrArg later same).trans (stays untaken.2)

theorem Sends.unique {taken before after : List OutboxEntry} {fate : OutboxEntry → OutboxEntry}
    (sends : Sends taken before after fate) (unique : UniqueBy OutboxEntry.id before) :
    UniqueBy OutboxEntry.id after := by
  have ids : after.map OutboxEntry.id = before.map OutboxEntry.id := by
    rw [sends.outbox, List.map_map]
    exact List.map_congr_left sends.named
  rw [UniqueBy, ids]
  exact unique

/-- The transaction for an accepted batch. -/
def acceptedResult (cfg : Config) (worker : WorkerId) (env : BatchEnv) (batch : List OutboxEntry)
    (run : PollRun) : BatchFinalization :=
  finalizeBatch cfg worker batch { successful := batch.map getEntryId, failed := [] }
    ((List.range (batch.map getEntryId).length).map env.callTime) env.publishedAt run.outbox
    run.metadata

theorem acceptedResult_failed (cfg : Config) (worker : WorkerId) (env : BatchEnv)
    (batch : List OutboxEntry) {run : PollRun} (unique : UniqueBy OutboxEntry.id run.outbox) :
    (acceptedResult cfg worker env batch run).finalizedFailed = [] := by
  refine List.eq_nil_iff_forall_not_mem.mpr fun labelled member => ?_
  obtain ⟨_, _, named, _⟩ := named_of_finalizedFailed unique member
  cases named

/-- A claimed entry of the batch is sent by the call made for it. -/
theorem acceptedResult_sends {env : BatchEnv} {limit : Time}
    (inTime : ∀ call, env.callTime call < limit) {batch : List OutboxEntry}
    (named : UniqueBy getEntryId batch) {run : PollRun} {fate : OutboxEntry → OutboxEntry}
    (outbox : (acceptedResult cfg worker env batch run).outbox = run.outbox.map fate)
    {entry : OutboxEntry} (member : entry ∈ batch) (stored : entry ∈ run.outbox)
    (held : ClaimedUntil worker limit entry) :
    ∃ time, fate entry = finalizeSucceeded time entry := by
  have decided := List.map_inj_left.mp
    ((finalizeBatch_outbox cfg worker batch _ _ _ run.outbox run.metadata).symm.trans outbox)
    entry stored
  have unfailed (after : OutboxEntry) (times : List Time) : settle cfg worker .failed []
      ((mapPublishResultsToEntries batch []).zip times) after = after := rfl
  rw [← decided, List.map_nil, unfailed]
  rcases settle_cases cfg worker .succeeded []
    ((mapPublishResultsToEntries batch (batch.map getEntryId)).zip
      ((List.range (batch.map getEntryId).length).map env.callTime)) entry with
    ⟨call, _, _, sent⟩ | ⟨silent, _⟩
  · exact ⟨call.2, sent⟩
  · exfalso
    have enough : (mapPublishResultsToEntries batch (batch.map getEntryId)).length ≤
        ((List.range (batch.map getEntryId).length).map env.callTime).length := by
      simpa using length_mapPublishResultsToEntries_le batch (batch.map getEntryId)
    obtain ⟨time, called⟩ := (exists_mem_zip_iff enough).mpr
      ((mapPublishResultsToEntries_all named).mpr member)
    obtain ⟨call, _, rfl⟩ := List.mem_map.mp (List.of_mem_zip called).2
    have matched : finalizeFilter [entry.id] worker (env.callTime call) entry = true :=
      finalizeFilter_iff.mpr ⟨List.mem_singleton_self _, held.processing, held.owned, limit,
        held.leased, inTime call⟩
    rw [silent _ called] at matched
    cases matched

/-- When the publisher accepts a batch, what the turn leaves is what its transaction does. -/
theorem publishBatch_of_accepted (worker : WorkerId) {env : PollEnv} (healthy : Healthy cfg env)
    (index : Nat) (batch : List OutboxEntry) {run : PollRun} (going : run.threw = false)
    (unique : UniqueBy OutboxEntry.id run.outbox) (isMetricsEnabled : Bool) :
    (publishBatch cfg worker isMetricsEnabled (env.batches index) batch run).threw = false ∧
      (publishBatch cfg worker isMetricsEnabled (env.batches index) batch run).outbox =
        (acceptedResult cfg worker (env.batches index) batch run).outbox := by
  have none := acceptedResult_failed cfg worker (env.batches index) batch unique
  simp only [publishBatch, healthy.accepts, healthy.commits, publishDocumentUploadMessageBatch,
    List.length_nil, Nat.add_zero, Bool.false_eq_true, ↓reduceIte]
  have same : finalizeBatch cfg worker batch
      { successful := batch.map getEntryId, failed := [] }
      ((List.range (batch.map getEntryId).length).map (env.batches index).callTime)
      (env.batches index).publishedAt run.outbox run.metadata =
        acceptedResult cfg worker (env.batches index) batch run := rfl
  rw [same, none, handleFailedEntries, if_pos rfl]
  have stays : (finalisedRun (acceptedResult cfg worker (env.batches index) batch run)
      (publishedRun batch (.answered { successful := batch.map getEntryId, failed := [] })
        { successful := batch.map getEntryId, failed := [] } run)).threw = false := going
  simp only [stays, Bool.false_eq_true, ↓reduceIte]
  exact ⟨trivial, rfl⟩

/-- A turn of the loop over the batches sends the whole batch. -/
theorem publishBatch_sends {env : PollEnv} (healthy : Healthy cfg env) (index : Nat)
    {batch : List OutboxEntry} (named : UniqueBy getEntryId batch) {run : PollRun}
    (going : run.threw = false) (unique : UniqueBy OutboxEntry.id run.outbox)
    (stored : ∀ entry ∈ batch, entry ∈ run.outbox)
    (held : ∀ entry ∈ batch, ClaimedUntil worker (env.now + cfg.outboxClaimLeaseMs) entry)
    (isMetricsEnabled : Bool) :
    ∃ fate, Sends batch run.outbox
      (publishBatch cfg worker isMetricsEnabled (env.batches index) batch run).outbox fate := by
  obtain ⟨fate, spec⟩ := finalizeBatch_spec cfg worker batch
    { successful := batch.map getEntryId, failed := [] }
    ((List.range (batch.map getEntryId).length).map (env.batches index).callTime)
    (env.batches index).publishedAt run.metadata unique
  have none := acceptedResult_failed cfg worker (env.batches index) batch unique
  refine ⟨fate, ?_, ?_, ?_, ?_⟩
  · have accepted := publishBatch_of_accepted worker healthy index batch going unique
      isMetricsEnabled
    exact accepted.2.trans spec.outbox_eq
  · intro entry member
    rcases spec.each entry member with ⟨kept, _⟩ | ⟨_, change, _⟩
    · rw [kept]
    · exact change.id_eq
  · intro entry member taken
    obtain ⟨claimed, inBatch, same⟩ := List.mem_map.mp taken
    have equal : claimed = entry := unique.eq_of_key (stored claimed inBatch) member same
    subst equal
    obtain ⟨time, sent⟩ := acceptedResult_sends (healthy.inTime index) named spec.outbox_eq
      inBatch member (held claimed inBatch)
    rw [sent]
    rfl
  · intro entry member untaken
    rcases spec.each entry member with ⟨kept, _⟩ | ⟨outcome, _, isSent, isFailed⟩
    · exact kept
    · -- The entry is listed as sent or as failed, and only entries of the batch are.
      exfalso
      cases outcome with
      | succeeded =>
          obtain ⟨labelled, listed, same⟩ := List.mem_map.mp (isSent.mpr rfl)
          obtain ⟨_, claimed, inBatch, label⟩ := spec.successful labelled listed
          rw [label] at same
          exact untaken (List.mem_map.mpr ⟨claimed, inBatch, same⟩)
      | failed =>
          obtain ⟨labelled, listed, _⟩ := List.mem_map.mp (isFailed.mpr rfl)
          exact List.not_mem_nil (none ▸ listed)

/-- The loop over the batches sends everything that was claimed. -/
theorem publishBatches_sends {env : PollEnv} (healthy : Healthy cfg env) (isMetricsEnabled : Bool)
    (turns index : Nat) {pending : List OutboxEntry} (enough : pending.length ≤ turns)
    (named : UniqueBy getEntryId pending) (distinct : UniqueBy OutboxEntry.id pending)
    {run : PollRun} (going : run.threw = false) (unique : UniqueBy OutboxEntry.id run.outbox)
    (stored : ∀ entry ∈ pending, entry ∈ run.outbox)
    (held : ∀ entry ∈ pending, ClaimedUntil worker (env.now + cfg.outboxClaimLeaseMs) entry) :
    ∃ fate, Sends pending run.outbox
      (publishBatches cfg worker isMetricsEnabled env.batches turns index pending run).outbox
      fate := by
  induction turns generalizing index pending run with
  | zero =>
      have none : pending = [] := List.eq_nil_of_length_eq_zero (Nat.le_zero.mp enough)
      subst none
      exact ⟨id, .refl run.outbox⟩
  | succ turns ih =>
      rw [publishBatches]
      by_cases none : pending = []
      · subst none
        exact ⟨id, .refl run.outbox⟩
      · rw [if_neg none]
        have parts := List.take_append_drop batchSize pending
        have inFront {entry : OutboxEntry} (member : entry ∈ pending.take batchSize) :
            entry ∈ pending := List.mem_of_mem_take member
        have inBack {entry : OutboxEntry} (member : entry ∈ pending.drop batchSize) :
            entry ∈ pending := List.mem_of_mem_drop member
        have names : UniqueBy getEntryId (pending.take batchSize ++ pending.drop batchSize) :=
          parts.symm ▸ named
        have ids : UniqueBy OutboxEntry.id (pending.take batchSize ++ pending.drop batchSize) :=
          parts.symm ▸ distinct
        rw [UniqueBy, List.map_append, List.nodup_append] at names ids
        have goes := (publishBatch_of_accepted worker healthy index (pending.take batchSize)
          going unique isMetricsEnabled).1
        obtain ⟨fate, sends⟩ := publishBatch_sends healthy index names.1 going unique
          (fun entry member => stored entry (inFront member))
          (fun entry member => held entry (inFront member)) isMetricsEnabled
        simp only [goes, Bool.false_eq_true, ↓reduceIte]
        have fewer : (pending.drop batchSize).length ≤ turns := by
          have positive : 0 < pending.length := List.length_pos_iff.mpr none
          rw [List.length_drop, batchSize]
          omega
        generalize publishBatch cfg worker isMetricsEnabled (env.batches index)
          (pending.take batchSize) run = after at goes sends ⊢
        have storedAfter : ∀ entry ∈ pending.drop batchSize, entry ∈ after.outbox := by
          intro entry member
          have apart : entry.id ∉ (pending.take batchSize).map OutboxEntry.id := fun front =>
            ids.2.2 _ front _ (List.mem_map_of_mem member) rfl
          rw [sends.outbox, ← sends.kept entry (stored entry (inBack member)) apart]
          exact List.mem_map_of_mem (stored entry (inBack member))
        obtain ⟨later, rest⟩ := ih (index + 1) fewer names.2.1 ids.2.1 goes (sends.unique unique)
          storedAfter fun entry member => held entry (inBack member)
        have whole := sends.trans rest
        rw [parts] at whole
        exact ⟨later ∘ fate, whole⟩

/-! ## A healthy poll -/

/-- When none of its queries throws, the claim loop is that of `claimProcessableOutboxEntries`. -/
theorem claimRun_eq (cfg : Config) (worker : WorkerId) {env : PollEnv}
    (claims : env.claimFails = none) (remaining index : Nat) (run : ClaimRun) :
    (claimRun cfg worker env remaining index run).threw = run.threw ∧
      ((claimRun cfg worker env remaining index run).claimed,
        (claimRun cfg worker env remaining index run).outbox) =
          claimTurns cfg env.picks worker env.now remaining index run.outbox run.claimed := by
  induction remaining generalizing index run with
  | zero => exact ⟨rfl, rfl⟩
  | succ remaining ih =>
      have continues : ¬ env.claimFails = some index := by simp [claims]
      rw [claimRun, claimTurns, if_neg continues]
      cases findOneAndUpdate (env.picks index) (isProcessable cfg env.now)
          (claimUpdate cfg worker env.now) run.outbox with
      | none => exact ⟨rfl, rfl⟩
      | some found => exact ih (index + 1) _

/-- The claim loop has taken these entries, the oldest eligible ones. -/
abbrev Claimed (cfg : Config) (worker : WorkerId) (now : Time) (outbox taken after :
    List OutboxEntry) : Prop :=
  Drained OutboxEntry.createdAt OutboxEntry.id (isProcessable cfg now) (claimUpdate cfg worker now)
    cfg.outboxQueryLimit outbox taken after

theorem claimRun_claimed {env : PollEnv} (claims : env.claimFails = none)
    {outbox : List OutboxEntry} (unique : UniqueBy OutboxEntry.id outbox) {claim : ClaimRun}
    (ran : claim = claimRun cfg worker env cfg.outboxQueryLimit 0
      { claimed := [], outbox, log := [], threw := false }) :
    claim.threw = false ∧ ∃ taken, claim.claimed = taken.map (claimUpdate cfg worker env.now) ∧
      Claimed cfg worker env.now outbox taken claim.outbox := by
  obtain ⟨goes, ends⟩ := claimRun_eq cfg worker claims cfg.outboxQueryLimit 0
    { claimed := [], outbox, log := [], threw := false }
  rw [claimTurns_eq, List.nil_append, Prod.mk.injEq] at ends
  rw [ran, ends.1, ends.2]
  exact ⟨goes, _, rfl, drain_spec env.picks OutboxEntry.id (isProcessable cfg env.now)
    (claimUpdate cfg worker env.now) (fun _ => rfl)
    (fun entry _ => isProcessable_claimUpdate cfg worker env.now entry)
    cfg.outboxQueryLimit 0 unique⟩

/-- What becomes of an entry by a claim loop and the batches after it. -/
def pollFate (cfg : Config) (worker : WorkerId) (now : Time) (taken : List OutboxEntry)
    (fate : OutboxEntry → OutboxEntry) (entry : OutboxEntry) : OutboxEntry :=
  fate (if entry.id ∈ taken.map OutboxEntry.id then claimUpdate cfg worker now entry else entry)

theorem Claimed.sends {now : Time} {outbox taken claimed after : List OutboxEntry}
    (drained : Claimed cfg worker now outbox taken claimed) {fate : OutboxEntry → OutboxEntry}
    (sends : Sends (taken.map (claimUpdate cfg worker now)) claimed after fate) :
    Sends taken outbox after (pollFate cfg worker now taken fate) := by
  have ids : (taken.map (claimUpdate cfg worker now)).map OutboxEntry.id =
      taken.map OutboxEntry.id := by
    rw [List.map_map]
    rfl
  have between {entry : OutboxEntry} (member : entry ∈ outbox) :
      (if entry.id ∈ taken.map OutboxEntry.id then claimUpdate cfg worker now entry else entry) ∈
        claimed := by
    rw [drained.after_eq]
    exact mem_updateMany.mpr ⟨entry, member, by simp⟩
  constructor
  case outbox =>
    rw [sends.outbox, drained.after_eq, updateMany, List.map_map]
    refine List.map_congr_left fun entry _ => ?_
    simp only [Function.comp_apply, pollFate, decide_eq_true_eq]
  case named =>
    intro entry member
    rw [pollFate, sends.named _ (between member)]
    split <;> rfl
  case sent =>
    intro entry member isTaken
    have stored := between member
    rw [if_pos isTaken] at stored
    rw [pollFate, if_pos isTaken]
    exact sends.sent _ stored (ids.symm ▸ isTaken)
  case kept =>
    intro entry member untaken
    have stored := between member
    rw [if_neg untaken] at stored
    rw [pollFate, if_neg untaken]
    exact sends.kept _ stored (ids.symm ▸ untaken)

/-- A poll in which nothing goes wrong sends the oldest eligible entries, as many as it may. -/
theorem publishPendingMessages_sends (worker : WorkerId) {env : PollEnv}
    (healthy : Healthy cfg env) {outbox : List OutboxEntry} (metadata : List MetadataDocument)
    (unique : UniqueBy OutboxEntry.id outbox) (named : UniqueBy getEntryId outbox) :
    ∃ taken claimed fate, Claimed cfg worker env.now outbox taken claimed ∧
      Sends taken outbox (publishPendingMessages cfg worker env outbox metadata).outbox fate := by
  rw [publishPendingMessages, if_pos healthy.starts, processPendingMessages]
  generalize ran : claimRun cfg worker env cfg.outboxQueryLimit 0
    { claimed := [], outbox, log := [], threw := false } = claim
  obtain ⟨goes, taken, claims, drained⟩ := claimRun_claimed healthy.claims unique ran.symm
  simp only [goes, Bool.false_eq_true, ↓reduceIte]
  by_cases none : claim.claimed = []
  · have nothing : taken = [] := List.map_eq_nil_iff.mp (claims ▸ none)
    subst nothing
    simp only [none, ↓reduceIte]
    exact ⟨[], _, _, drained, drained.sends (.refl claim.outbox)⟩
  · simp only [none, ↓reduceIte]
    rw [claims]
    have ids : UniqueBy OutboxEntry.id (taken.map (claimUpdate cfg worker env.now)) := by
      rw [UniqueBy, List.map_map]
      exact drained.distinct
    have names : UniqueBy getEntryId (taken.map (claimUpdate cfg worker env.now)) := by
      rw [UniqueBy, List.map_map]
      refine List.Nodup.map_on (fun left isLeft right isRight same => ?_)
        (List.Nodup.of_map _ drained.distinct)
      exact named.eq_of_key (drained.matched left isLeft).1 (drained.matched right isRight).1 same
    have uniqueAfter : UniqueBy OutboxEntry.id claim.outbox := by
      rw [drained.after_eq]
      exact unique.updateMany fun _ => rfl
    have stored : ∀ entry ∈ taken.map (claimUpdate cfg worker env.now), entry ∈ claim.outbox := by
      intro entry member
      obtain ⟨before, isTaken, rfl⟩ := List.mem_map.mp member
      rw [drained.after_eq]
      exact mem_updateMany_of_matched (drained.matched before isTaken).1
        (decide_eq_true (List.mem_map_of_mem isTaken))
    have held : ∀ entry ∈ taken.map (claimUpdate cfg worker env.now),
        ClaimedUntil worker (env.now + cfg.outboxClaimLeaseMs) entry := by
      intro entry member
      obtain ⟨before, _, rfl⟩ := List.mem_map.mp member
      exact ⟨rfl, rfl, rfl⟩
    let begun : PollRun :=
      { outbox := claim.outbox
        metadata
        requests := []
        metrics := []
        log := claim.log ++ (taken.map (claimUpdate cfg worker env.now)).map .claimed ++
          [.processing (taken.map (claimUpdate cfg worker env.now)).length]
        audits := []
        threw := false }
    have begins : begun.threw = false := rfl
    obtain ⟨fate, sends⟩ := publishBatches_sends healthy env.isMetricsEnabled
      (taken.map (claimUpdate cfg worker env.now)).length 0 (Nat.le_refl _) names ids begins
      uniqueAfter stored held
    exact ⟨taken, claim.outbox, _, drained, drained.sends sends⟩

end ObjectProcessor
