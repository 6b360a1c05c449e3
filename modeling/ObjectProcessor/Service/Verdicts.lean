import ObjectProcessor.Service.Polling

/-!
# What verdicts promise

A verdict only moves forward, and a failed delivery it reports is one.  A recorded
validation failure decides the verdict, whatever else happens under the journey.
-/

namespace ObjectProcessor

open Library

section Cases

variable {cfg : Config} {sessions : List Session} {status : List StatusRecord}
  {metadata : List MetadataDocument} {outbox : List OutboxEntry} {uploadId : Json}
  {verdict : LocalVerdict} {journeyId : String} {record : StatusRecord}

/-- A verdict that is not pending rests on a record of the journey. -/
theorem VerdictCase.recorded
    (case : VerdictCase cfg sessions status metadata outbox uploadId verdict)
    (settled : verdict.uploadStatus ≠ .pending) :
    ∃ journeyId, journeyOf sessions uploadId = some journeyId ∧
      ∃ record, record ∈ getStatusByCorrelationId cfg status journeyId := by
  cases case with
  | awaiting => exact absurd rfl settled
  | rejected session member => exact ⟨_, session, _, member⟩
  | deliveryFailed session _ givenUp =>
      obtain ⟨record, member, _⟩ := exists_permanentFailure givenUp
      exact ⟨_, session, record, member⟩
  | accepted session recorded => exact ⟨_, session, List.exists_mem_of_ne_nil _ recorded⟩

/-- Once a record is read the verdict is a failure, unless all records are validated
and no delivery counts as failed. -/
theorem VerdictCase.failure_or_success
    (case : VerdictCase cfg sessions status metadata outbox uploadId verdict)
    (session : journeyOf sessions uploadId = some journeyId)
    (member : record ∈ getStatusByCorrelationId cfg status journeyId) :
    verdict.uploadStatus = .failure ∨ verdict.uploadStatus = .success ∧
      (∀ record ∈ getStatusByCorrelationId cfg status journeyId, record.validated = true) ∧
        hasUnpublishedPermanentFailure (getStatusByCorrelationId cfg status journeyId) metadata
          outbox = false := by
  cases case with
  | awaiting nothing =>
      rw [nothing journeyId session] at member
      exact absurd member List.not_mem_nil
  | rejected => exact Or.inl rfl
  | deliveryFailed => exact Or.inl rfl
  | accepted same _ validated delivering =>
      rw [session] at same
      cases same
      exact Or.inr ⟨rfl, validated, delivering⟩

theorem VerdictCase.settled
    (case : VerdictCase cfg sessions status metadata outbox uploadId verdict)
    (session : journeyOf sessions uploadId = some journeyId)
    (member : record ∈ getStatusByCorrelationId cfg status journeyId) :
    verdict.uploadStatus ≠ .pending := by
  rcases case.failure_or_success session member with failure | ⟨success, _⟩
  · simp [failure]
  · simp [success]

theorem VerdictCase.failure_of_failed
    (case : VerdictCase cfg sessions status metadata outbox uploadId verdict)
    (session : journeyOf sessions uploadId = some journeyId)
    (member : record ∈ getStatusByCorrelationId cfg status journeyId)
    (failed : record.validated = false) : verdict.uploadStatus = .failure := by
  rcases case.failure_or_success session member with failure | ⟨_, validated, _⟩
  · exact failure
  · rw [validated record member] at failed
    cases failed

theorem VerdictCase.failure_of_givenUp
    (case : VerdictCase cfg sessions status metadata outbox uploadId verdict)
    (session : journeyOf sessions uploadId = some journeyId)
    (member : record ∈ getStatusByCorrelationId cfg status journeyId)
    (givenUp : hasUnpublishedPermanentFailure (getStatusByCorrelationId cfg status journeyId)
      metadata outbox = true) : verdict.uploadStatus = .failure := by
  rcases case.failure_or_success session member with failure | ⟨_, _, delivering⟩
  · exact failure
  · rw [givenUp] at delivering
    cases delivering

end Cases

/-! ## Moving forward -/

/-- Some file of the journey was given up, and no later state has it published. -/
def DeliveryGivenUp {cfg : Config} (poll : Poll cfg) (uploadId : Json) : Prop :=
  ∃ journeyId, journeyOf poll.session.store.sessions uploadId = some journeyId ∧
    ∃ entry ∈ poll.outbox.store.outbox, entry.status = .permanentFailure ∧
      ∀ later, Reaches (System.step cfg) poll.outbox later →
        (∃ document ∈ later.store.metadata, document.fileId = entry.fileId ∧
          document.messaging.correlationId = journeyId) ∧
        ∀ document ∈ later.store.metadata, document.fileId = entry.fileId →
          document.messaging.publishedAt = none

namespace Poll

variable {cfg : Config} {uploadId : Json} {journeyId : String}

/-- The entry behind a failed delivery. -/
theorem givenUpEntry (poll : Poll cfg)
    (givenUp : hasUnpublishedPermanentFailure
      (getStatusByCorrelationId cfg poll.status.store.status journeyId)
      poll.metadata.store.metadata poll.outbox.store.outbox = true) :
    ∃ record ∈ getStatusByCorrelationId cfg poll.status.store.status journeyId,
      (∃ fileId, record.fileId = .str fileId ∧ fileId ≠ "") ∧
      ∃ entry ∈ poll.outbox.store.outbox, entry.fileId = record.fileId ∧
        entry.status = .permanentFailure ∧
        ∀ later, Reaches (System.step cfg) poll.outbox later → entry ∈ later.store.outbox ∧
          ∀ document ∈ later.store.metadata, document.fileId = entry.fileId →
            document.messaging.publishedAt = none := by
  obtain ⟨record, member, isText, entry, stored, file, status⟩ := exists_permanentFailure givenUp
  refine ⟨record, member, isText, entry, stored, file, status, fun later reach => ⟨?_, ?_⟩⟩
  · exact poll.reachable_outbox.permanentFailure reach stored status
  · exact poll.reachable_outbox.never_published reach stored status

variable {earlier later : Poll cfg}

theorem session_later (order : earlier.Before later)
    (session : journeyOf earlier.session.store.sessions uploadId = some journeyId) :
    journeyOf later.session.store.sessions uploadId = some journeyId :=
  journeyOf_of_reaches (earlier.sessionStatus.trans (earlier.statusOutbox.trans order)) session

/-- A record an earlier poll has read is read again. -/
theorem record_later (order : earlier.Before later) (few : later.FewRecords uploadId)
    (session : journeyOf earlier.session.store.sessions uploadId = some journeyId)
    {record : StatusRecord}
    (member : record ∈ getStatusByCorrelationId cfg earlier.status.store.status journeyId) :
    record ∈ getStatusByCorrelationId cfg later.status.store.status journeyId := by
  obtain ⟨stored, same⟩ := mem_of_getStatusByCorrelationId member
  have reach := earlier.statusOutbox.trans (order.trans later.sessionStatus)
  exact mem_getStatusByCorrelationId (few journeyId (session_later order session))
    ((status_of_reaches reach).subset stored) same

theorem settled_later (order : earlier.Before later) (few : later.FewRecords uploadId)
    (settled : (earlier.verdict uploadId).uploadStatus ≠ .pending) :
    (later.verdict uploadId).uploadStatus ≠ .pending := by
  obtain ⟨journeyId, session, record, member⟩ := (earlier.case uploadId).recorded settled
  exact (later.case uploadId).settled (session_later order session)
    (record_later order few session member)

theorem failure_later (order : earlier.Before later) (few : later.FewRecords uploadId)
    (failure : (earlier.verdict uploadId).uploadStatus = .failure) :
    (later.verdict uploadId).uploadStatus = .failure := by
  have case := earlier.case uploadId
  generalize earlier.verdict uploadId = verdict at case failure
  cases case with
  | awaiting => cases failure
  | accepted => cases failure
  | rejected session member failed =>
      exact (later.case uploadId).failure_of_failed (session_later order session)
        (record_later order few session member) failed
  | deliveryFailed session validated givenUp =>
      obtain ⟨record, member, ⟨fileId, named, nonempty⟩, entry, _, file, status, stays⟩ :=
        earlier.givenUpEntry givenUp
      have again := record_later order few session member
      have toMetadata := order.trans (later.sessionStatus.trans later.statusMetadata)
      have unpublished := (stays _ toMetadata).2
      have stored := (stays _ (toMetadata.trans later.metadataOutbox)).1
      have files := later.reachable_outbox.agreement.2.entryFiles
      exact (later.case uploadId).failure_of_givenUp (session_later order session) again
        (hasUnpublishedPermanentFailure_of_entry files again named nonempty stored file status
          unpublished)

theorem deliveryGivenUp (poll : Poll cfg)
    (stage : (poll.verdict uploadId).stage = .deliveryFailed) : DeliveryGivenUp poll uploadId := by
  have case := poll.case uploadId
  generalize poll.verdict uploadId = verdict at case stage
  cases case with
  | awaiting => cases stage
  | accepted => cases stage
  | rejected => cases stage
  | deliveryFailed session validated givenUp =>
      rename_i journeyId errors
      obtain ⟨record, member, _, entry, stored, file, status, stays⟩ := poll.givenUpEntry givenUp
      refine ⟨journeyId, session, entry, stored, status, fun later reach => ⟨?_, ?_⟩⟩
      · obtain ⟨recorded, same⟩ := mem_of_getStatusByCorrelationId member
        have kept := (status_of_reaches (poll.statusOutbox.trans reach)).subset recorded
        obtain ⟨document, found, isFile, journey⟩ :=
          (poll.reachable_outbox.reaches reach).filesRecorded record kept (validated record member)
        exact ⟨document, found, isFile.trans file.symm, journey.trans same⟩
      · exact (stays later reach).2

end Poll

/-- Over successive polls of an upload the verdict moves forward only, and every
failed delivery reported is one. -/
theorem verdicts_move_forward {cfg : Config} {polls : List (Poll cfg)} (uploadId : Json)
    (successive : polls.IsChain Poll.Before) (few : ∀ poll ∈ polls, poll.FewRecords uploadId) :
    polls.Pairwise (fun earlier later =>
      ((earlier.verdict uploadId).uploadStatus ≠ .pending →
        (later.verdict uploadId).uploadStatus ≠ .pending) ∧
      ((earlier.verdict uploadId).uploadStatus = .failure →
        (later.verdict uploadId).uploadStatus = .failure)) ∧
    ∀ poll ∈ polls, (poll.verdict uploadId).stage = .deliveryFailed →
      DeliveryGivenUp poll uploadId := by
  refine ⟨?_, fun poll _ stage => poll.deliveryGivenUp stage⟩
  have ordered := List.isChain_iff_pairwise.mp successive
  refine ordered.imp_of_mem fun _ isLater order => ?_
  exact ⟨Poll.settled_later order (few _ isLater), Poll.failure_later order (few _ isLater)⟩

namespace Sample

/-- A worker claims the entry and its batch is answered. -/
def attempt (entry : ObjectId) (answer : PublishAnswer) : List Action :=
  [ .start "worker", .claim "worker" entry, .claimsDone "worker", .publish "worker" answer,
    .finalize "worker" [0] 0, .report "worker" ]

/-- The callback of an upload that was initiated. -/
def received : List Action :=
  [.initiate session, .callback (journeyEnv 1) (journeyBody "ready")]

/-- The only attempt fails. -/
def givenUp : List Action :=
  received ++ attempt (objectId 101) (.threw none none)

/-- A poll before the attempt and a poll after it. -/
def polls : List (Poll oneAttempt) :=
  [ .atOnce (Reachable.after oneAttempt received (by decide)),
    .atOnce (Reachable.after oneAttempt givenUp (by decide)) ]

end Sample

theorem verdicts_move_forward_sample :
    (Sample.polls.map fun poll => (poll.verdict Sample.uploadId).stage) =
        [.accepted, .deliveryFailed] ∧
      ∀ poll ∈ Sample.polls, (poll.verdict Sample.uploadId).stage = .deliveryFailed →
        DeliveryGivenUp poll Sample.uploadId := by
  have later : Reaches (System.step Sample.oneAttempt)
      (System.after Sample.oneAttempt Sample.received (by decide))
      (System.after Sample.oneAttempt Sample.givenUp (by decide)) :=
    System.reaches_after Sample.received
      (Sample.attempt (Sample.objectId 101) (.threw none none)) (by decide) (by decide)
  have successive : Sample.polls.IsChain Poll.Before := by
    unfold Sample.polls
    exact List.isChain_pair.mpr later
  have short : ∀ poll ∈ Sample.polls,
      poll.status.store.status.length < Sample.oneAttempt.statusQueryLimit := by decide
  have few : ∀ poll ∈ Sample.polls, poll.FewRecords Sample.uploadId :=
    fun poll member _ _ => Nat.lt_of_le_of_lt (List.length_filter_le ..) (short poll member)
  exact ⟨by decide, (verdicts_move_forward Sample.uploadId successive few).2⟩

/-! ## Verdicts and completed deliveries -/

/-- While every file of the journey is published, no delivery counts as failed, and
the verdict is a failure exactly when a callback was recorded as one. -/
theorem failure_iff_recorded {cfg : Config} (poll : Poll cfg) (uploadId : Json)
    {journeyId : String}
    (session : journeyOf poll.session.store.sessions uploadId = some journeyId)
    (few : FewRecords cfg poll.status.store.status journeyId)
    (published : ∀ document ∈ poll.outbox.store.metadata,
      document.messaging.correlationId = journeyId →
        document.messaging.publishedAt.isSome = true) :
    (poll.verdict uploadId).stage ≠ .deliveryFailed ∧
      ((poll.verdict uploadId).uploadStatus = .failure ↔
        ∃ record ∈ poll.status.store.status,
          record.correlationId = journeyId ∧ record.validated = false) := by
  have delivered : (poll.verdict uploadId).stage ≠ .deliveryFailed := by
    intro stage
    obtain ⟨other, same, entry, _, _, stays⟩ := poll.deliveryGivenUp stage
    rw [session] at same
    cases same
    obtain ⟨⟨document, stored, file, journey⟩, unpublished⟩ := stays poll.outbox (.refl _)
    have isPublished := published document stored journey
    rw [unpublished document stored file] at isPublished
    cases isPublished
  refine ⟨delivered, ?_, ?_⟩
  · intro failure
    have case := poll.case uploadId
    generalize poll.verdict uploadId = verdict at case failure delivered
    cases case with
    | awaiting => cases failure
    | accepted => cases failure
    | deliveryFailed => exact absurd rfl delivered
    | rejected same member failed =>
        rw [session] at same
        cases same
        obtain ⟨stored, isJourney⟩ := mem_of_getStatusByCorrelationId member
        exact ⟨_, stored, isJourney, failed⟩
  · rintro ⟨record, stored, same, failed⟩
    exact (poll.case uploadId).failure_of_failed session
      (mem_getStatusByCorrelationId few stored same) failed

namespace Sample

def delivered : List Action :=
  received ++
    attempt (objectId 101) (.answered { successful := [.file (.str fileA)], failed := [] })

/-- A callback comes before the upload is ready. -/
def deliveredAfterEarlyCallback : List Action :=
  [ .initiate session, .callback (journeyEnv 1) (journeyBody "pending"),
    .callback (journeyEnv 3) (journeyBody "ready") ] ++
    attempt (objectId 103) (.answered { successful := [.file (.str fileA)], failed := [] })

end Sample

theorem failure_iff_recorded_sample :
    ((Poll.atOnce (Reachable.after Sample.config Sample.delivered (by decide))).verdict
      Sample.uploadId).uploadStatus ≠ .failure := by
  have quiet : ∀ record ∈ (System.after Sample.config Sample.delivered
      (by decide)).store.status, record.validated = true := by decide
  have few : FewRecords Sample.config (System.after Sample.config Sample.delivered
      (by decide)).store.status Sample.journeyId := by
    unfold FewRecords
    decide
  intro failure
  obtain ⟨record, stored, _, failed⟩ := (failure_iff_recorded
    (Poll.atOnce (Reachable.after Sample.config Sample.delivered (by decide)))
    Sample.uploadId (by decide) few (by decide)).2.mp failure
  rw [quiet record stored] at failed
  cases failed

/-- Every file of the journey is published, and the verdict is a failure. -/
theorem Sample.delivered_upload_fails :
    journeyOf (System.after Sample.config Sample.deliveredAfterEarlyCallback
        (by decide)).store.sessions Sample.uploadId = some Sample.journeyId ∧
      ((System.after Sample.config Sample.deliveredAfterEarlyCallback
        (by decide)).store.metadata.map fun document =>
          (document.messaging.correlationId, document.messaging.publishedAt.isSome)) =
        [(Sample.journeyId, true)] ∧
      FewRecords Sample.config (System.after Sample.config Sample.deliveredAfterEarlyCallback
        (by decide)).store.status Sample.journeyId ∧
      ((Poll.atOnce (Reachable.after Sample.config Sample.deliveredAfterEarlyCallback
        (by decide))).verdict Sample.uploadId).uploadStatus = .failure := by
  refine ⟨by decide, by decide, ?_, by decide⟩
  unfold FewRecords
  decide

end ObjectProcessor
